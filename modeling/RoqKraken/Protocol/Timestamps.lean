import RoqKraken.Overflow

/-!
# `protocol/json/utils.hpp`: timestamps

The fields of type `std/milliseconds` and `std/microseconds` are decoded by two
specialisations of `update`, from seconds where the value is a number.  The
module settles for which integers both decode exactly.
-/

namespace RoqKraken.Protocol.Timestamps

/-- `core::json::Value`, up to the contents of objects and arrays. -/
inductive Value where
  | null
  | bool (value : Bool)
  | int64 (value : Int64)
  | double (value : Float)
  | string (value : String)
  | object
  | array

/-- What the source leaves to its language and to `utils::charconv`. -/
structure Primitives where
  /-- A signed product that does not fit into 64 bits, which is undefined. -/
  overflow : Int64 → Int64 → Int64
  /-- The cast of a double that is not in the range of `uint64_t`, likewise. -/
  outOfRange : Float → UInt64
  /-- `from_chars` of `Format::DATETIME`; `none` when it raises. -/
  milliseconds : String → Option Int64
  microseconds : String → Option Int64

variable (primitives : Primitives)

def multiply (value factor : Int64) : Int64 :=
  if value.FitsMul factor then value * factor else primitives.overflow value factor

/-- `static_cast<uint64_t>` of a double, which drops its fraction. -/
def castToUInt64 (value : Float) : UInt64 :=
  if -1.0 < value ∧ value < 18446744073709551616.0 then value.toUInt64
  else primitives.outOfRange value

/-- What the two specialisations share: the value that is stored, or `none` when
`std::bad_cast` is raised. -/
def update (factor : Int64) (scale : Float) (fromChars : String → Option Int64) :
    Value → Option Int64
  | .null => some 0
  | .bool _ => none
  | .int64 value => some (multiply primitives value factor).toUInt64.toInt64
  | .double value => some (castToUInt64 primitives (value * scale)).toInt64
  | .string value => fromChars value
  | .object => none
  | .array => none

/-- `update(std::chrono::milliseconds &)`. -/
def updateMilliseconds : Value → Option Int64 :=
  update primitives 1000 1.0e3 primitives.milliseconds

/-- `update(std::chrono::microseconds &)`. -/
def updateMicroseconds : Value → Option Int64 :=
  update primitives 1000000 1.0e6 primitives.microseconds

/-! ## Integers -/

/-- A product is exact where it fits, whatever is made of the others. -/
theorem toInt_multiply_iff (value factor : Int64) :
    (multiply primitives value factor).toInt = value.toInt * factor.toInt ↔
      value.FitsMul factor := by
  constructor
  · intro exactly
    rw [Int64.FitsMul, ← exactly]
    exact ⟨Int64.minValue_le_toInt _, Int64.toInt_le _⟩
  · intro fits
    rw [multiply, if_pos fits, fits.toInt_mul]

theorem update_exact_iff (value : Int64) {factor : Int64} {scale : Float}
    {fromChars : String → Option Int64} :
    (∀ stored ∈ update primitives factor scale fromChars (.int64 value),
      stored.toInt = value.toInt * factor.toInt) ↔ value.FitsMul factor := by
  rw [← toInt_multiply_iff primitives]
  simp only [update, Int64.toInt64_toUInt64, Option.mem_some_iff, forall_eq']

theorem milliseconds_exact_iff (value : Int64) :
    (∀ milliseconds ∈ updateMilliseconds primitives (.int64 value),
      milliseconds.toInt = value.toInt * 1000) ↔
    -9223372036854775 ≤ value.toInt ∧ value.toInt ≤ 9223372036854775 := by
  refine (update_exact_iff primitives value).trans (Int64.fitsMul_iff.trans ?_)
  have thousand : (1000 : Int64).toInt = 1000 := by decide
  rw [thousand]
  omega

theorem microseconds_exact_iff (value : Int64) :
    (∀ microseconds ∈ updateMicroseconds primitives (.int64 value),
      microseconds.toInt = value.toInt * 1000000) ↔
    -9223372036854 ≤ value.toInt ∧ value.toInt ≤ 9223372036854 := by
  refine (update_exact_iff primitives value).trans (Int64.fitsMul_iff.trans ?_)
  have million : (1000000 : Int64).toInt = 1000000 := by decide
  rw [million]
  omega

/-- The value is refused, or decoded exactly in both units. -/
structure Exact (value : Int64) : Prop where
  milliseconds : ∀ milliseconds ∈ updateMilliseconds primitives (.int64 value),
    milliseconds.toInt = value.toInt * 1000
  microseconds : ∀ microseconds ∈ updateMicroseconds primitives (.int64 value),
    microseconds.toInt = value.toInt * 1000000
  agree : ∀ milliseconds ∈ updateMilliseconds primitives (.int64 value),
    ∀ microseconds ∈ updateMicroseconds primitives (.int64 value),
      microseconds.toInt = 1000 * milliseconds.toInt

/-- **Integer timestamps.**  They decode exactly as far as the seconds fit into 64
bits as microseconds. -/
theorem exact_iff (value : Int64) :
    Exact primitives value ↔ -9223372036854 ≤ value.toInt ∧ value.toInt ≤ 9223372036854 := by
  constructor
  · intro exactly
    exact (microseconds_exact_iff primitives value).mp exactly.microseconds
  · intro small
    have inMilliseconds := (milliseconds_exact_iff primitives value).mpr (by omega)
    have inMicroseconds := (microseconds_exact_iff primitives value).mpr small
    refine ⟨inMilliseconds, inMicroseconds, fun milliseconds stored microseconds stored' => ?_⟩
    rw [inMilliseconds milliseconds stored, inMicroseconds microseconds stored']
    omega

/-- A feed that counts microseconds: the product overflows. -/
theorem microseconds_overflow : ¬ ∀ primitives value, Exact primitives value := by
  intro decodes
  have stored := (decodes ⟨fun value factor => value * factor, Float.toUInt64, fun _ => none, fun _ => none⟩
    1769000000000000).microseconds _ rfl
  revert stored
  decide

end RoqKraken.Protocol.Timestamps
