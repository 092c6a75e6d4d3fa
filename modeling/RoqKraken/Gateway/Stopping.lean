import RoqKraken.Gateway.Isolation

/-!
# When the controller ends the process

`log::fatal` ends the process with all its streams.  In a reachable gateway there
are three ways for the controller and its streams to get there,
`step_controller_eq_none_iff`: a binary frame, a message that belongs on the other
side of the exchange, and an order request for an account that is configured but has
no token yet.  The check of the account in the handler of `TokenUpdate` is not one of
them, no matter what the exchange answers, `exists_step_orderEntry`; what is left is
the signing of requests.

The handlers of the web sockets are taken not to raise.  An exception there ends the
process as well, since `parse` has a `catch (...)` that does.
-/

namespace RoqKraken

namespace Json.Message

/-- Messages of the public side. -/
def isPublic : Message → Bool
  | .instrument _ | .ticker _ | .trade _ | .book _ => true
  | _ => false

/-- Messages of the private side. -/
def isPrivate : Message → Bool
  | .balances _ | .executions _ | .addOrder _ | .amendOrder _ | .cancelOrder _ | .cancelAll => true
  | _ => false

end Json.Message

namespace Gateway

/-- What a public stream ends the process at. -/
def MarketData.Event.isFatal : MarketData.Event → Bool
  | .binary => true
  | .message received => received.isPrivate
  | _ => false

/-- What a private session ends the process at. -/
def DropCopy.Event.isFatal : DropCopy.Event → Bool
  | .binary => true
  | .message received _ => received.isPublic
  | _ => false

theorem MarketData.onEvent_eq_none {core : Symbols} {session : MarketData} {server : Server}
    {settings : Settings} {shared : Shared core} {event : MarketData.Event} :
    session.onEvent server settings shared event = none ↔ event.isFatal = true := by
  cases event with
  | message message =>
    cases message <;>
      simp [onEvent, onMessage, MarketData.Event.isFatal, Json.Message.isPrivate]
  | _ => simp [onEvent, MarketData.Event.isFatal]

theorem DropCopy.step_eq_none {server : Server} {settings : Settings} {session : DropCopy}
    {event : DropCopy.Event} :
    session.step server settings event = none ↔ event.isFatal = true := by
  cases event with
  | message message oms =>
    cases message <;>
      simp [DropCopy.step, onMessage, DropCopy.Event.isFatal, Json.Message.isPublic]
  | _ => simp [DropCopy.step, DropCopy.Event.isFatal]

namespace Controller

variable {core : Symbols} {server : Server} {settings : Settings} {controller : Controller core}

theorem step_marketData_eq_none {index : Nat} {session : MarketData} {received : MarketData.Event}
    (found : controller.marketData[index]? = some session) :
    step server settings controller (.marketData index received) = none ↔
      received.isFatal = true := by
  have known : ∀ result, session.onEvent server settings controller.shared received = some result →
      step server settings controller (.marketData index received) ≠ none := by
    intro result handled
    simp only [step, onMarketData, found, handled, Option.bind_eq_bind, Option.bind_some]
    split <;> simp
  rw [← @MarketData.onEvent_eq_none core session server settings controller.shared]
  cases handled : session.onEvent server settings controller.shared received with
  | none => simp [step, onMarketData, found, handled]
  | some result => simp [known result handled]

theorem step_dropCopy_eq_none {account : String} {session : DropCopy} {received : DropCopy.Event}
    (found : controller.dropCopy.lookup account = some (some session)) :
    step server settings controller (.dropCopy account received) = none ↔
      received.isFatal = true := by
  rw [← @DropCopy.step_eq_none server settings session]
  simp only [step, onDropCopy, found, Option.join_some, Option.bind_eq_bind, Option.bind_some]
  cases session.step server settings received <;> simp

/-- A request stops the process at the null entry of its account. -/
theorem step_request_eq_none {request : DropCopy.Request} :
    step server settings controller (.request request) = none ↔
      settings.wsApi = true ∧ controller.dropCopy.lookup request.account = some none := by
  cases mode : settings.wsApi with
  | false =>
    simp only [step, onRequest, mode, Bool.false_eq_true, if_false]
    cases controller.getOrderEntry request.account <;> simp
  | true =>
    simp only [step, onRequest, mode, if_true, getDropCopy]
    cases controller.dropCopy.lookup request.account with
    | none => simp
    | some session => cases session <;> simp

end Controller

namespace System

variable {core : Symbols} {download : OrderEntry.Download2} {decoders : OrderEntry.Decoders}
  {server : Server} {settings : Settings} {config : Config} {system : System core download}
  {event : Event} {events : List Event} {log : List (Event × List Emitted)}

/-- The stream the event is for exists. -/
def Addressed (system : System core download) : Event → Prop
  | .controller (.marketData index _) _ => index < system.controller.marketData.length
  | .controller (.dropCopy account _) _ =>
    ∃ session, system.controller.dropCopy.lookup account = some (some session)
  | .controller _ _ => True
  | .orderEntry account _ => ∃ session, system.orderEntry.lookup account = some session

theorem exists_onTokenUpdate {controller : Controller core} {account : String}
    (known : (controller.entry account).isSome) (token : String) :
    ∃ next, controller.onTokenUpdate account token = some next ∧
      (next.entry account).isSome := by
  obtain ⟨next, updated⟩ : ∃ next, controller.onTokenUpdate account token = some next := by
    rw [Controller.entry, Option.isSome_map] at known
    obtain ⟨session, found⟩ := Option.isSome_iff_exists.mp known
    unfold Controller.onTokenUpdate
    rw [found]
    cases session with
    | none => exact ⟨_, rfl⟩
    | some session => exact ⟨_, rfl⟩
  refine ⟨next, updated, ?_⟩
  rw [Controller.entry_onTokenUpdate updated, Option.isSome_map]
  exact known

theorem exists_onTokenUpdateRaised {controller : Controller core} {account : String}
    (known : (controller.entry account).isSome) :
    ∃ next, controller.onTokenUpdateRaised account = some next ∧
      (next.entry account).isSome := by
  obtain ⟨next, updated⟩ : ∃ next, controller.onTokenUpdateRaised account = some next := by
    rw [Controller.entry, Option.isSome_map] at known
    obtain ⟨session, found⟩ := Option.isSome_iff_exists.mp known
    unfold Controller.onTokenUpdateRaised
    rw [found]
    cases session with
    | none => exact ⟨_, rfl⟩
    | some session => exact ⟨_, rfl⟩
  refine ⟨next, updated, ?_⟩
  rcases Controller.onTokenUpdateRaised_cases updated with rfl | rfl <;> exact known

/-- Tokens for accounts in the table are handed over, whichever calls raise. -/
theorem exists_handTokens (raises : Nat → Option OrderEntry.Exception)
    {calls : List (OrderEntry.Effect × Nat)} {controller : Controller core} {account : String}
    (known : (controller.entry account).isSome)
    (own : ∀ call ∈ calls, ∀ name token, call.1 = .tokenUpdate name token → name = account) :
    ∃ controller', handTokens raises controller calls = some controller' := by
  induction calls generalizing controller with
  | nil => exact ⟨controller, rfl⟩
  | cons call calls ih =>
    obtain ⟨next, first, still⟩ : ∃ next, handToken raises controller call = some next ∧
        (next.entry account).isSome := by
      obtain ⟨effect, index⟩ := call
      cases effect with
      | tokenUpdate name token =>
        cases own _ (List.mem_cons_self ..) name token rfl
        simp only [handToken]
        cases raises index with
        | none => exact exists_onTokenUpdate known token
        | some exception => exact exists_onTokenUpdateRaised known
      | _ => exact ⟨controller, rfl, known⟩
    obtain ⟨last, rest⟩ := ih still fun call member => own call (List.mem_cons_of_mem _ member)
    refine ⟨last, ?_⟩
    rw [handTokens, List.foldlM_cons, first]
    exact rest

/-- The REST sessions are those of the configured accounts. -/
theorem accounts_run
    (ran : (step decoders server settings).run (create core download config) events =
      some (system, log)) : system.orderEntry.map Prod.fst = config.accounts := by
  refine @Step.run_induction _ _ _ _ _ _ _ _
    (fun (system : System core download) _ => system.orderEntry.map Prod.fst = config.accounts)
    [] ran ?_ ?_
  · intro system past event system' out _ inv stepped
    cases event with
    | controller event external =>
      obtain ⟨controller, outputs, -, rfl, -⟩ := step_controller stepped
      exact inv
    | orderEntry name event =>
      obtain ⟨session, next, effects, controller, -, -, -, rfl, -⟩ := step_orderEntry stepped
      rw [map_fst_replace, inv]
  · rw [create, List.map_map]
    exact (@Controller.sound_create core config).orderEntry

/-- What a REST session hands over never ends the process. -/
theorem exists_step_orderEntry
    (ran : (step decoders server settings).run (create core download config) events =
      some (system, log))
    {account : String} {session : OrderEntry download}
    (found : system.orderEntry.lookup account = some session) (event : OrderEntry.Event) :
    ∃ result, step decoders server settings system (.orderEntry account event) = some result := by
  obtain ⟨next, effects, turn⟩ : ∃ next effects,
      OrderEntry.step decoders session event = some (next, effects) := ⟨_, _, rfl⟩
  have member : account ∈ config.accounts := by
    obtain ⟨front, back, same, -⟩ := List.lookup_eq_some_iff.mp found
    rw [← accounts_run ran, same]
    simp
  have known : (system.controller.entry account).isSome := by
    rw [entry_run ran, if_pos member]
    rfl
  have own : ∀ call ∈ effects.zipIdx, ∀ name token, call.1 = .tokenUpdate name token →
      name = account := by
    rintro ⟨effect, index⟩ listed name token rfl
    have performed := List.fst_mem_of_mem_zipIdx listed
    rw [(OrderEntry.step_results turn _ performed rfl).1]
    exact (named_run ran).1 account session found
  obtain ⟨controller, handed⟩ := exists_handTokens event.raises known own
  simp only [step, found, turn, handed, Option.bind_eq_bind, Option.bind_some]
  exact ⟨_, rfl⟩

theorem step_controller_eq_none {event : Controller.Event} {external : event.External} :
    step decoders server settings system (.controller event external) = none ↔
      Controller.step server settings system.controller event = none := by
  simp only [step, Option.bind_eq_bind, Option.bind_eq_none_iff]
  constructor
  · intro never
    cases stepped : Controller.step server settings system.controller event with
    | none => rfl
    | some result => cases never result stepped
  · intro stopped result stepped
    cases stopped.symm.trans stepped

/-- What of the streams, or of a client, ends the process after a run. -/
def Fatal (settings : Settings) (config : Config) (log : List (Event × List Emitted)) :
    Controller.Event → Prop
  | .marketData _ received => received.isFatal = true
  | .dropCopy _ received => received.isFatal = true
  | .request request => settings.wsApi = true ∧
      request.account ∈ config.accounts ∧ log.findSome? (handedToken request.account) = none
  | _ => False

/-- An event that reaches the controller ends the process exactly if it is a binary frame,
a message of the other side, or an order request before the first token of its account. -/
theorem step_controller_eq_none_iff
    (ran : (step decoders server settings).run (create core download config) events =
      some (system, log)) {event : Controller.Event} {external : event.External}
    (addressed : Addressed system (.controller event external)) :
    step decoders server settings system (.controller event external) = none ↔
      Fatal settings config log event := by
  rw [step_controller_eq_none]
  cases event with
  | marketData index received =>
    exact Controller.step_marketData_eq_none (List.getElem?_eq_getElem addressed)
  | dropCopy account received =>
    obtain ⟨session, found⟩ := addressed
    exact Controller.step_dropCopy_eq_none found
  | request request =>
    have known := entry_run ran request.account
    rw [Controller.entry] at known
    rw [Controller.step_request_eq_none, Fatal]
    refine and_congr_right fun _ => ?_
    cases found : system.controller.dropCopy.lookup request.account with
    | none =>
      have unknown : request.account ∉ config.accounts := by
        intro member
        simp [found, member] at known
      simp [unknown]
    | some session =>
      have member : request.account ∈ config.accounts := by
        by_contra unknown
        simp [found, unknown] at known
      rw [found, if_pos member, Option.map_some, Option.some_inj] at known
      cases handed : log.findSome? (handedToken request.account) with
      | none =>
        rw [handed] at known
        cases session with
        | none => simp [member]
        | some session => cases known
      | some token =>
        rw [handed] at known
        cases session with
        | none => cases known
        | some session => simp
  | symbolsUpdate symbols | tokenUpdate account token => exact external.elim
  | _ => simp [Controller.step, Fatal]

end System

end Gateway

end RoqKraken
