import RoqKraken.Machine
import Mathlib.Order.Basic
import Mathlib.Data.List.Chain

/-!
# `tools::Crypto`: the nonce of signed requests

`Crypto::create_body` draws the nonce of every signed request from the
real-time clock and keeps it in `nonce_`.  This module models that function and
settles when the nonces of an account grow strictly.
-/

namespace RoqKraken.Tools

/-- The part of `tools::Crypto` that `create_body` reads and writes.  `nonce_`
counts milliseconds and starts at zero. -/
structure Crypto where
  passphrase : String
  nonce : Int := 0
deriving DecidableEq

namespace Crypto

/-- `THRESHOLD`, in milliseconds. -/
def threshold : Int := -1000

/-- `duration_cast` of a nanosecond clock reading to milliseconds; it rounds
toward zero. -/
def toMilliseconds (realtime : Int) : Int := realtime.tdiv 1000000

/-- The text of the request body, with the quotes as the source has them. -/
def bodyText (passphrase : String) (nonce : Int) : String :=
  if passphrase.isEmpty then
    "nonce=" ++ toString nonce
  else
    r#""nonce="# ++ toString nonce ++ "&" ++ r#""opt="# ++ passphrase ++ r#"""#

/-- `Crypto::create_body` at one reading of the real-time clock (nanoseconds);
`none` is the fatal branch. -/
def createBody (crypto : Crypto) (realtime : Int) : Option (Crypto × String) :=
  let now := toMilliseconds realtime
  let diff := now - crypto.nonce
  if diff < threshold then
    none
  else
    let nonce := if diff < 0 then crypto.nonce + 1 else now
    some ({ crypto with nonce }, bodyText crypto.passphrase nonce)

/-- All a call that returns does. -/
theorem createBody_eq_some {crypto crypto' : Crypto} {realtime : Int} {body : String} :
    crypto.createBody realtime = some (crypto', body) ↔
      threshold ≤ toMilliseconds realtime - crypto.nonce ∧
      crypto'.passphrase = crypto.passphrase ∧
      crypto'.nonce = (if toMilliseconds realtime < crypto.nonce then crypto.nonce + 1
        else toMilliseconds realtime) ∧
      body = bodyText crypto.passphrase crypto'.nonce := by
  rcases crypto' with ⟨passphrase, nonce⟩
  have negative : toMilliseconds realtime - crypto.nonce < 0 ↔
      toMilliseconds realtime < crypto.nonce := by omega
  simp only [createBody, negative]
  by_cases fatal : toMilliseconds realtime - crypto.nonce < threshold
  · simp [fatal]
  · simp only [fatal, if_false, Option.some.injEq, Prod.mk.injEq, mk.injEq]
    constructor
    · rintro ⟨⟨rfl, rfl⟩, rfl⟩
      exact ⟨Int.not_lt.mp fatal, rfl, rfl, rfl⟩
    · rintro ⟨-, rfl, rfl, rfl⟩
      exact ⟨⟨rfl, rfl⟩, rfl⟩

/-- A call is fatal where the clock is further behind the nonce than the threshold. -/
theorem createBody_eq_none {crypto : Crypto} {realtime : Int} :
    crypto.createBody realtime = none ↔ toMilliseconds realtime - crypto.nonce < threshold := by
  simp [createBody]

/-- A stored nonce is never behind the clock that produced it and never more
than a threshold and a millisecond ahead, so it fits the 64 bits of `nonce_`
whenever the clock does. -/
theorem nonce_near_clock {crypto crypto' : Crypto} {realtime : Int} {body : String}
    (call : crypto.createBody realtime = some (crypto', body)) :
    toMilliseconds realtime ≤ crypto'.nonce ∧
      crypto'.nonce ≤ toMilliseconds realtime + 1001 := by
  obtain ⟨near, -, nonce, -⟩ := createBody_eq_some.mp call
  unfold threshold at near
  split at nonce <;> omega

/-- The nonces do not decrease, and repeat exactly when the clock stands on the
stored nonce: the comparison with zero is strict. -/
theorem nonce_lt_iff {crypto crypto' : Crypto} {realtime : Int} {body : String}
    (call : crypto.createBody realtime = some (crypto', body)) :
    crypto.nonce < crypto'.nonce ↔ toMilliseconds realtime ≠ crypto.nonce := by
  obtain ⟨-, -, nonce, -⟩ := createBody_eq_some.mp call
  split at nonce <;> omega

/-! ## Runs of calls on one account -/

/-- One call, with the nonce it put into the body. -/
def call : Step Crypto Int (Int × String) := fun crypto realtime =>
  (crypto.createBody realtime).map fun r => (r.1, r.1.nonce, r.2)

/-- The nonces of the bodies, in the order of the calls. -/
def nonces (log : List (Int × Int × String)) : List Int := log.map fun entry => entry.2.1

theorem call_eq_some {crypto crypto' : Crypto} {realtime : Int} {out : Int × String} :
    call crypto realtime = some (crypto', out) ↔
      crypto.createBody realtime = some (crypto', out.2) ∧ out.1 = crypto'.nonce := by
  obtain ⟨nonce, body⟩ := out
  simp only [call, Option.map_eq_some_iff, Prod.exists, Prod.mk.injEq]
  constructor
  · rintro ⟨_, _, h, rfl, rfl, rfl⟩
    exact ⟨h, rfl⟩
  · rintro ⟨h, rfl⟩
    exact ⟨_, _, h, rfl, rfl, rfl⟩

/-- The nonce that calls leave on a new account, by what the clock reads at them. -/
def nonceAfter (readings : List Int) : Int :=
  readings.foldl (fun nonce realtime =>
    if toMilliseconds realtime < nonce then nonce + 1 else toMilliseconds realtime) 0

theorem nonceAfter_concat (readings : List Int) (realtime : Int) :
    nonceAfter (readings ++ [realtime]) =
      if toMilliseconds realtime < nonceAfter readings then nonceAfter readings + 1
      else toMilliseconds realtime :=
  List.foldl_append ..

/-- The clock is further behind that nonce than the threshold. -/
def Behind (readings : List Int) (realtime : Int) : Prop :=
  toMilliseconds realtime - nonceAfter readings < threshold

instance (readings : List Int) (realtime : Int) : Decidable (Behind readings realtime) :=
  inferInstanceAs (Decidable (_ < _))

/-- No call reads the clock in the very millisecond of the nonce stored before
that call. -/
def ClockOffNonce (start : Crypto) (clock : List Int) : Prop :=
  ∀ earlier now later crypto log, clock = earlier ++ now :: later →
    call.run start earlier = some (crypto, log) → toMilliseconds now ≠ crypto.nonce

theorem clockOffNonce_cons {start next : Crypto} {now : Int} {later : List Int}
    {out : Int × String} (first : call start now = some (next, out)) :
    ClockOffNonce start (now :: later) ↔
      toMilliseconds now ≠ start.nonce ∧ ClockOffNonce next later := by
  constructor
  · intro off
    refine ⟨off [] now later start [] rfl (by simp), ?_⟩
    intro earlier now' later' crypto log split ran
    exact off (now :: earlier) now' later' crypto _ (by rw [split]; rfl)
      (Step.run_cons.mpr ⟨next, out, log, first, ran, rfl⟩)
  · rintro ⟨head, tail⟩ earlier now' later' crypto log split ran
    cases earlier with
    | nil =>
      obtain ⟨rfl, -⟩ := Step.run_nil.mp ran
      cases split
      exact head
    | cons e earlier =>
      cases split
      obtain ⟨next', out', rest, first', ran, -⟩ := Step.run_cons.mp ran
      cases first.symm.trans first'
      exact tail earlier now' later' crypto rest rfl ran

/-- From any stored nonce on: the nonces grow strictly, the stored one included,
exactly when the clock never stands on the stored nonce. -/
theorem isChain_nonces_iff {start crypto : Crypto} {clock : List Int}
    {log : List (Int × Int × String)} (ran : call.run start clock = some (crypto, log)) :
    (start.nonce :: nonces log).IsChain (· < ·) ↔ ClockOffNonce start clock := by
  induction clock generalizing start log with
  | nil =>
    obtain ⟨rfl, rfl⟩ := Step.run_nil.mp ran
    simp [nonces, ClockOffNonce]
  | cons now later ih =>
    obtain ⟨next, out, rest, first, tail, rfl⟩ := Step.run_cons.mp ran
    obtain ⟨body, nonce⟩ := call_eq_some.mp first
    rw [clockOffNonce_cons first, ← ih tail, ← nonce_lt_iff body]
    simp only [nonces, List.map_cons, List.isChain_cons_cons, nonce]

/-- The clock avoids the stored nonce from the second call on.  The first call
of an account has nothing to repeat. -/
def ClockOffNonceAfterFirst (passphrase : String) (clock : List Int) : Prop :=
  ∀ earlier now later crypto log, clock = earlier ++ now :: later → earlier ≠ [] →
    call.run { passphrase } earlier = some (crypto, log) → toMilliseconds now ≠ crypto.nonce

theorem clockOffNonceAfterFirst_cons {passphrase : String} {next : Crypto} {now : Int}
    {later : List Int} {out : Int × String}
    (first : call { passphrase } now = some (next, out)) :
    ClockOffNonceAfterFirst passphrase (now :: later) ↔ ClockOffNonce next later := by
  constructor
  · intro off earlier now' later' crypto log split ran
    exact off (now :: earlier) now' later' crypto _ (by rw [split]; rfl) (by simp)
      (Step.run_cons.mpr ⟨next, out, log, first, ran, rfl⟩)
  · rintro off earlier now' later' crypto log split nonempty ran
    obtain ⟨e, earlier, rfl⟩ := List.exists_cons_of_ne_nil nonempty
    cases split
    obtain ⟨next', out', rest, first', ran, -⟩ := Step.run_cons.mp ran
    cases first.symm.trans first'
    exact off earlier now' later' crypto rest rfl ran

/-- **Nonces of an account.**  In a run of `create_body` calls that never takes
the fatal branch, the nonces grow strictly if and only if no call after the
first finds the clock on the stored nonce. -/
theorem nonces_pairwise_lt_iff {passphrase : String} {clock : List Int} {crypto : Crypto}
    {log : List (Int × Int × String)}
    (ran : call.run { passphrase } clock = some (crypto, log)) :
    (nonces log).Pairwise (· < ·) ↔ ClockOffNonceAfterFirst passphrase clock := by
  rw [← List.isChain_iff_pairwise]
  cases clock with
  | nil =>
    obtain ⟨-, rfl⟩ := Step.run_nil.mp ran
    simp [nonces, ClockOffNonceAfterFirst]
  | cons now later =>
    obtain ⟨next, out, rest, first, tail, rfl⟩ := Step.run_cons.mp ran
    obtain ⟨-, nonce⟩ := call_eq_some.mp first
    rw [clockOffNonceAfterFirst_cons first, ← isChain_nonces_iff tail]
    simp only [nonces, List.map_cons, nonce]

/-- Three calls: the clock advances, then steps back a second. -/
theorem nonces_pairwise_lt_iff_backward_step :
    (nonces [(1769000000000000000, 1769000000000, "nonce=1769000000000"),
        (1769000000001000000, 1769000000001, "nonce=1769000000001"),
        (1768999999001000000, 1769000000002, "nonce=1769000000002")]).Pairwise (· < ·) ↔
      ClockOffNonceAfterFirst ""
        [1769000000000000000, 1769000000001000000, 1768999999001000000] :=
  @nonces_pairwise_lt_iff _ _ ⟨"", 1769000000002⟩ _ (by decide)

/-- Two readings within one millisecond give two bodies one nonce, and no fatal
branch is taken. -/
theorem nonces_repeat_within_millisecond :
    ¬ ∀ passphrase clock crypto log,
      call.run { passphrase } clock = some (crypto, log) → (nonces log).Pairwise (· < ·) := by
  intro strict
  have ran : call.run { passphrase := "" } [1769000000000000000, 1769000000000300000] =
      some (⟨"", 1769000000000⟩,
        [(1769000000000000000, 1769000000000, "nonce=1769000000000"),
          (1769000000000300000, 1769000000000, "nonce=1769000000000")]) := by decide
  have increasing := strict _ _ _ _ ran
  simp [nonces] at increasing

end Crypto

end RoqKraken.Tools
