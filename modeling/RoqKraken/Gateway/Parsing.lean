import RoqKraken.Protocol.Parser
import RoqKraken.Gateway.DropCopy
import RoqKraken.Gateway.MarketData

/-!
# From texts to handlers

`MarketData::parse` and `DropCopy::parse` hand a message to `Parser::dispatch`
with the session as the handler, and terminate the process when that raises.

`allow_unknown_event_types` is meant to keep a gateway alive when the exchange
sends what it does not know.  The module settles which messages it does that
for.
-/

namespace RoqKraken.Gateway

open Json (Members Decoders)
open Json.Parser (Raised dispatch recognise firstType Decides Untyped)

namespace DropCopy

/-- The session as `Parser::Handler`, with what it has put out so far. -/
def handler (server : Server) (settings : Settings) (oms : Nat → Option Order)
    (message : Json.Message) : Fallible Raised (DropCopy × List Output) PUnit := do
  let (session, outputs) ← get
  match session.onMessage server settings oms message with
  | some (session, more) => set (session, outputs ++ more)
  | none => throw .handler

theorem run_handler (server : Server) (settings : Settings) (oms : Nat → Option Order)
    (message : Json.Message) (session : DropCopy) (outputs : List Output) :
    (handler server settings oms message).run.run (session, outputs) =
      match session.onMessage server settings oms message with
      | some (session, more) => (.ok ⟨⟩, (session, outputs ++ more))
      | none => (.error .handler, (session, outputs)) := by
  change (match session.onMessage server settings oms message with
    | some (session, more) => set (session, outputs ++ more)
    | none => throw .handler : Fallible Raised (DropCopy × List Output) PUnit).run.run _ = _
  cases session.onMessage server settings oms message <;> rfl

/-- `DropCopy::parse`; `none` is `Unhandled::terminate`.  A message that was not
handled only reaches the log. -/
def parse (decoders : Decoders) (server : Server) (settings : Settings)
    (allowUnknownEventTypes : Bool) (session : DropCopy) (members : Members)
    (oms : Nat → Option Order) : Option (DropCopy × List Output) :=
  match (dispatch decoders (handler server settings oms) members allowUnknownEventTypes).run.run
    (session, []) with
  | (.ok _, result) => some result
  | (.error _, _) => none

/-- The message is handled as the type it comes to. -/
theorem parse_eq (decoders : Decoders) (server : Server) (settings : Settings)
    (allowUnknownEventTypes : Bool) (session : DropCopy) (members : Members)
    (oms : Nat → Option Order) :
    session.parse decoders server settings allowUnknownEventTypes members oms =
      match members.find? fun pair => decide (Decides pair) with
      | some pair =>
        (recognise pair).bind fun type =>
          (decoders.decode members type).bind (session.onMessage server settings oms)
      | none => if allowUnknownEventTypes then some (session, []) else none := by
  unfold parse
  rw [Json.Parser.dispatch_eq]
  cases members.find? fun pair => decide (Decides pair) with
  | none => cases allowUnknownEventTypes <;> rfl
  | some pair =>
    simp only [Json.Parser.run_decided]
    cases recognise pair with
    | none => rfl
    | some type =>
      cases decoded : decoders.decode members type with
      | none => simp [decoded]
      | some message =>
        simp only [decoded, run_handler, Option.bind_some]
        cases session.onMessage server settings oms message <;> rfl

end DropCopy

namespace MarketData

variable {core : Symbols}

/-- The stream as `Parser::Handler`, with what it has put out so far. -/
def handler (server : Server) (settings : Settings) (message : Json.Message) :
    Fallible Raised (Result core) PUnit := do
  let before ← get
  match before.session.onMessage server settings before.shared message with
  | some result =>
    set { result with
      outputs := before.outputs ++ result.outputs
      newSymbols := before.newSymbols ++ result.newSymbols }
  | none => throw .handler

theorem run_handler (server : Server) (settings : Settings) (message : Json.Message)
    (session : MarketData) (shared : Shared core) :
    (handler server settings message).run.run ({ session, shared } : Result core) =
      match session.onMessage server settings shared message with
      | some result => (.ok ⟨⟩, result)
      | none => (.error .handler, { session, shared }) := by
  change (match session.onMessage server settings shared message with
    | some result => set { result with
        outputs := [] ++ result.outputs, newSymbols := [] ++ result.newSymbols }
    | none => throw .handler : Fallible Raised (Result core) PUnit).run.run _ = _
  cases session.onMessage server settings shared message <;> rfl

/-- `MarketData::parse`; `none` is `Unhandled::terminate`. -/
def parse (decoders : Decoders) (server : Server) (settings : Settings)
    (allowUnknownEventTypes : Bool) (session : MarketData) (shared : Shared core)
    (members : Members) : Option (Result core) :=
  match (dispatch decoders (handler server settings) members allowUnknownEventTypes).run.run
    { session, shared } with
  | (.ok _, result) => some result
  | (.error _, _) => none

/-- The message is handled as the type it comes to. -/
theorem parse_eq (decoders : Decoders) (server : Server) (settings : Settings)
    (allowUnknownEventTypes : Bool) (session : MarketData) (shared : Shared core)
    (members : Members) :
    session.parse decoders server settings allowUnknownEventTypes shared members =
      match members.find? fun pair => decide (Decides pair) with
      | some pair =>
        (recognise pair).bind fun type =>
          (decoders.decode members type).bind (session.onMessage server settings shared)
      | none => if allowUnknownEventTypes then some { session, shared } else none := by
  unfold parse
  rw [Json.Parser.dispatch_eq]
  cases members.find? fun pair => decide (Decides pair) with
  | none => cases allowUnknownEventTypes <;> rfl
  | some pair =>
    simp only [Json.Parser.run_decided]
    cases recognise pair with
    | none => rfl
    | some type =>
      cases decoded : decoders.decode members type with
      | none => simp [decoded]
      | some message =>
        simp only [decoded, run_handler, Option.bind_some]
        cases session.onMessage server settings shared message <;> rfl

end MarketData

/-! ## Messages that are not known -/

/-- Up to the first recognised pair, methods and channels are strings. -/
def NamesAreStrings (members : Members) : Prop :=
  ∀ past pair later, members = past ++ pair :: later →
    (∀ earlier ∈ past, recognise earlier = none) →
      pair.1 = "method" ∨ pair.1 = "channel" → pair.2.isString = true

/-- Then nothing but a recognised pair decides. -/
theorem namesAreStrings_iff {members : Members} : NamesAreStrings members ↔
    ∀ pair, (members.find? fun pair => decide (Decides pair)) = some pair →
      ∃ type, recognise pair = some type := by
  constructor
  · intro strings pair found
    obtain ⟨decides, past, later, cut, before⟩ := List.find?_eq_some_iff_append.mp found
    rcases (of_decide_eq_true decides : Decides pair) with ⟨key, other⟩ | recognised
    · have unrecognised : ∀ earlier ∈ past, recognise earlier = none := by
        intro earlier member
        have not : ¬ Decides earlier := by simpa using before earlier member
        simpa using fun recognised => not (.inr recognised)
      rw [strings past pair later cut unrecognised key] at other
      cases other
    · exact Option.isSome_iff_exists.mp recognised
  · intro recognised past pair later cut before key
    by_contra other
    have untyped : Untyped pair := ⟨key, by simpa using other⟩
    have found : (members.find? fun pair => decide (Decides pair)) =
        (past.find? fun pair => decide (Decides pair)).or (some pair) := by
      rw [cut, List.find?_append, List.find?_cons_of_pos (by simp [Decides, untyped])]
    cases first : past.find? fun pair => decide (Decides pair) with
    | none =>
      obtain ⟨type, known⟩ := recognised pair (by rw [found, first]; rfl)
      rw [Json.Parser.recognise_eq_none_of_untyped untyped] at known
      cases known
    | some earlier =>
      obtain ⟨type, known⟩ := recognised earlier (by rw [found, first]; rfl)
      rw [before earlier (List.mem_of_find?_eq_some first)] at known
      cases known

/-- With `allow_unknown_event_types`, a message is dispatched or found unknown,
unless the decoder of its type raises; and a session survives a message in which
nothing is recognised. -/
structure Tolerates (decoders : Decoders) (members : Members) : Prop where
  dispatch : ∀ {σ : Type} (handler : Json.Message → Fallible Raised σ PUnit),
    (∀ message s, ∃ s', (handler message).run.run s = (.ok ⟨⟩, s')) → ∀ s,
      (∃ result s', (dispatch decoders handler members true).run.run s = (.ok result, s') ∧
        (firstType members = none → result = false)) ∨
      (∃ type, firstType members = some type ∧ decoders.decode members type = none) ∧
        ∃ s', (dispatch decoders handler members true).run.run s = (.error .decoder, s')
  marketData : firstType members = none → ∀ {core : Symbols} (server : Server)
    (settings : Settings) (session : MarketData) (shared : Shared core),
      session.parse decoders server settings true shared members ≠ none
  dropCopy : firstType members = none → ∀ (server : Server) (settings : Settings)
    (session : DropCopy) (oms : Nat → Option Order),
      session.parse decoders server settings true members oms ≠ none

/-- **Unknown messages.**  They are tolerated exactly when methods and channels
are strings up to the first pair that is recognised. -/
theorem tolerates_iff (decoders : Decoders) (members : Members) :
    Tolerates decoders members ↔ NamesAreStrings members := by
  rw [namesAreStrings_iff]
  constructor
  · intro tolerates pair found
    have returned := tolerates.dispatch (fun _ => (pure ⟨⟩ : Fallible Raised Unit PUnit))
      (fun _ s => ⟨s, rfl⟩) ()
    rw [Json.Parser.dispatch_eq, found] at returned
    simp only [Json.Parser.run_decided] at returned
    cases recognised : recognise pair with
    | some type => exact ⟨type, rfl⟩
    | none =>
      simp only [recognised] at returned
      rcases returned with ⟨_, _, same, -⟩ | ⟨-, _, same⟩ <;> cases same
  · intro recognised
    cases found : members.find? fun pair => decide (Decides pair) with
    | none =>
      constructor
      · intro σ handler returns s
        rw [Json.Parser.dispatch_eq, found]
        exact .inl ⟨false, s, rfl, fun _ => rfl⟩
      · intro _ core server settings session shared
        simp [MarketData.parse_eq, found]
      · intro _ server settings session oms
        simp [DropCopy.parse_eq, found]
    | some pair =>
      obtain ⟨type, known⟩ := recognised pair found
      have first := Json.Parser.firstType_of_find? found known
      refine ⟨?_, fun none => ?_, fun none => ?_⟩
      · intro σ handler returns s
        rw [Json.Parser.dispatch_eq, found]
        simp only [Json.Parser.run_decided, known]
        cases decoded : decoders.decode members type with
        | none => exact .inr ⟨⟨type, first, decoded⟩, s, rfl⟩
        | some message =>
          obtain ⟨s', returned⟩ := returns message s
          exact .inl ⟨true, s', by simp only [returned], fun none => by simp [first] at none⟩
      · rw [first] at none
        cases none
      · rw [first] at none
        cases none

/-- A method that is null raises, although unknown messages are allowed. -/
theorem null_method_not_tolerated :
    ¬ ∀ (decoders : Decoders) (members : Members), Tolerates decoders members := by
  intro tolerates
  have returned := (tolerates Json.Parser.plainDecoders [("method", .null)]).dropCopy rfl
    ⟨255, fun _ => false⟩ {} ⟨3, "A1", "T", .ready⟩ fun _ => none
  exact returned rfl

end RoqKraken.Gateway
