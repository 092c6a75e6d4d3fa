import RoqKraken.Staged
import RoqKraken.Gateway.OrderEntry

/-!
# What a turn of the REST session does

Whatever a turn of a session does to the download is staged work: `Conforms`
says so for the part of a turn done so far, together with what the turn may do at
all, and every action keeps it.  `step_turnSpec` is what is left to say about a
step: it begins a download first or not at all, it is staged work, and it checks
a stage only because of a response that the handler accepts.
-/

namespace RoqKraken.Gateway

namespace OrderEntry

open Staged

variable {core : Download2} {decoders : Decoders} {raises : Nat → Option Exception}

/-! ## The stages as work -/

/-- What is left of the download at a stage. -/
def State.remaining : State → Option (List State)
  | .undefined => none
  | .token => some stages
  | .balance => some [.balance, .tradeBalance, .openPositions, .openOrders]
  | .tradeBalance => some [.tradeBalance, .openPositions, .openOrders]
  | .openPositions => some [.openPositions, .openOrders]
  | .openOrders => some [.openOrders]
  | .done => some []

theorem State.remaining_eq_cons {stage : State} (member : stage ∈ stages) :
    ∃ rest, stage.remaining = some (stage :: rest) ∧ stage.next.remaining = some rest := by
  cases stage <;> simp_all [stages, State.remaining, State.next]

def left (session : OrderEntry core) : Option (List State) :=
  (core.stage session.download).remaining

/-- Does it publish `ConnectionStatus::READY`? -/
def Effect.isReady : Effect → Bool
  | .dispatch (.streamStatus status) => status.connectionStatus = .ready
  | _ => false

def Effect.label : Effect → Label State
  | .begin => .begin
  | .reset => .reset
  | .check stage => .pass stage
  | effect => if effect.isReady then .finish else .other

/-- What a callback of the download may do at any stage but the last. -/
def Effect.isAmbient : Effect → Bool
  | .dispatch (.streamStatus _) => true
  | .request .. => true
  | _ => false

/-- The part of a turn after `before` did allowed things only, and is staged
work from `start` on. -/
def Conforms (allowed : Effect → Prop) (start : Option (List State)) (before : List Effect)
    (turn : Turn core) : Prop :=
  ∃ effects, turn.effects = before ++ effects ∧ (∀ effect ∈ effects, allowed effect) ∧
    Path stages start (effects.map Effect.label) turn.session.left

variable {allowed : Effect → Prop} {start : Option (List State)} {before : List Effect}
  {turn : Turn core} {effect : Effect}

theorem conforms_refl (turn : Turn core) :
    Conforms allowed turn.session.left turn.effects turn :=
  ⟨[], by simp, by simp, .refl _⟩

/-- One more effect, with what it makes of the work. -/
theorem Conforms.note (conforms : Conforms allowed start before turn) (permitted : allowed effect)
    {session : OrderEntry core}
    (moved : ∀ labels, Path stages start labels turn.session.left →
      Path stages start (labels ++ [effect.label]) session.left) :
    Conforms allowed start before { session, effects := turn.effects ++ [effect] } := by
  obtain ⟨effects, split, all, path⟩ := conforms
  refine ⟨effects ++ [effect], by simp [split], ?_, ?_⟩
  · intro other member
    rcases List.mem_append.mp member with old | new
    · exact all other old
    · rwa [List.mem_singleton.mp new]
  · simpa using moved _ path

/-- A change of the session that leaves the stage, or drops the download. -/
theorem Conforms.session (conforms : Conforms allowed start before turn)
    {session : OrderEntry core}
    (same : session.left = turn.session.left ∨ session.left = none) :
    Conforms allowed start before { turn with session } := by
  obtain ⟨effects, split, all, path⟩ := conforms
  refine ⟨effects, split, all, ?_⟩
  rcases same with same | dropped
  · rwa [same]
  · rw [dropped]
    exact path.drop

/-! ## Actions -/

/-- A property of a turn that no call a callback makes can break. -/
structure Quiet (Inv : Turn core → Prop) : Prop where
  note : ∀ turn effect, effect.isAmbient = true → effect.isReady = false → Inv turn →
    Inv (turn.note effect)
  status : ∀ (turn : Turn core) status, Inv turn →
    Inv { turn with session := { turn.session with connectionStatus := status } }

section Quiet

variable {Inv : Turn core → Prop} (quiet : Quiet Inv)
include quiet

theorem Quiet.keeps_perform (ambient : effect.isAmbient = true) (silent : effect.isReady = false) :
    Fallible.Keeps Inv (perform raises effect) := by
  intro turn inv
  rw [after_perform]
  exact quiet.note turn effect ambient silent inv

theorem Quiet.keeps_onConnectionStatus {status : ConnectionStatus} (notReady : status ≠ .ready)
    (reason : String) : Fallible.Keeps Inv (onConnectionStatus raises status reason) := by
  unfold onConnectionStatus
  refine Fallible.keeps_get_bind fun turn => Fallible.keeps_bind ?_ fun _ => ?_
  · exact Fallible.keeps_modify fun turn inv => quiet.status turn status inv
  · exact quiet.keeps_perform rfl (by simp [Effect.isReady, notReady])

theorem Quiet.keeps_request (path name : String) :
    Fallible.Keeps Inv (request raises path name) := by
  unfold request
  exact Fallible.keeps_get_bind fun turn => quiet.keeps_perform rfl rfl

/-- A callback before the last stage. -/
theorem Quiet.keeps_onDownload {state : State} (waiting : state ≠ .done) :
    Fallible.Keeps Inv (onDownload raises state) := by
  cases state with
  | undefined => exact Fallible.keeps_pure _
  | token => exact Fallible.keeps_bind (quiet.keeps_request _ _) fun _ => Fallible.keeps_pure _
  | done => exact absurd rfl waiting
  | _ =>
    refine Fallible.keeps_bind (quiet.keeps_onConnectionStatus (by decide) _) fun _ => ?_
    exact Fallible.keeps_bind (quiet.keeps_request _ _) fun _ => Fallible.keeps_pure _

end Quiet

theorem keeps_settle (result : Option Int) :
    Fallible.Keeps (Conforms allowed start before) (settle result : Act core PUnit) := by
  refine Fallible.keeps_modify fun turn conforms => conforms.session ?_
  rcases core.settle_spec turn.session.download result with same | dropped
  · exact .inl (congrArg State.remaining same)
  · exact .inr (congrArg State.remaining dropped)

theorem keeps_reset (permitted : allowed .reset) :
    Fallible.Keeps (Conforms allowed start before) (reset : Act core PUnit) := by
  intro turn conforms
  rw [after_reset]
  refine conforms.note permitted fun labels path => ?_
  change Path stages start _ (core.stage (core.reset turn.session.download)).remaining
  rw [core.reset_spec]
  exact path.reset

section Conforms

variable (ambient : ∀ effect : Effect, effect.isAmbient = true → allowed effect)
include ambient

theorem quiet_conforms : Quiet (Conforms allowed start before : Turn core → Prop) where
  note turn effect isAmbient silent conforms := by
    have other : effect.label = .other := by
      cases effect <;> simp_all [Effect.label, Effect.isAmbient]
    refine conforms.note (ambient effect isAmbient) fun labels path => ?_
    rw [other]
    exact path.other
  status turn status conforms := conforms.session (.inl rfl)

/-- A callback runs at the stage the download is at. -/
theorem conforms_onDownload {state : State} (conforms : Conforms allowed start before turn)
    (current : core.stage turn.session.download = state) :
    Conforms allowed start before ((onDownload raises state).after turn) := by
  by_cases last : state = .done
  · subst last
    have finished : turn.session.left = some [] := by rw [left, current]; rfl
    refine Fallible.inv_bind ?_ fun _ => Fallible.keeps_pure _
    unfold onConnectionStatus
    rw [Fallible.after_get_bind, Fallible.after_modify_bind, after_perform]
    refine conforms.note (ambient _ rfl) fun labels path => ?_
    rw [finished] at path
    change Path stages start (labels ++ [.finish]) turn.session.left
    rw [finished]
    exact path.finish
  · exact (quiet_conforms ambient).keeps_onDownload last turn conforms

theorem conforms_callback {state : State} (conforms : Conforms allowed start before turn)
    (current : core.stage turn.session.download = state) :
    Conforms allowed start before ((callback raises state).after turn) := by
  have ran : Conforms allowed start before ((onDownload raises state).after turn) :=
    conforms_onDownload ambient conforms current
  refine Fallible.inv_tryCatch ?_ fun exception => ?_
  · exact Fallible.inv_bind ran fun count => keeps_settle _
  · exact Fallible.keeps_bind (keeps_settle _) fun _ => Fallible.keeps_throw _

/-- A call on the download whose callback is that of the stage it is at then. -/
theorem conforms_move {moved : core.Data × Option State}
    (conforms : Conforms allowed start before (turn.setDownload moved.1))
    (current : ∀ state ∈ moved.2, state = core.stage moved.1) :
    Conforms allowed start before ((move raises moved).after turn) := by
  unfold move
  rw [Fallible.after_modify_bind]
  cases called : moved.2 with
  | none => exact conforms
  | some state => exact conforms_callback ambient conforms (current state called).symm

/-- The part of a turn after a call on the download. -/
theorem conforms_after_call {moved : core.Data × Option State} (turn : Turn core)
    (effect : Effect) (current : ∀ state ∈ moved.2, state = core.stage moved.1) :
    Conforms allowed (core.stage moved.1).remaining (turn.effects ++ [effect])
      ((move raises moved).after (turn.note effect)) :=
  conforms_move ambient (conforms_refl ((turn.note effect).setDownload moved.1)) current

/-- A call on the download, with what it makes of the work. -/
theorem conforms_call {moved : core.Data × Option State}
    (conforms : Conforms allowed start before turn) (permitted : allowed effect)
    (path : ∀ labels, Path stages start labels turn.session.left →
      Path stages start (labels ++ [effect.label]) (core.stage moved.1).remaining)
    (current : ∀ state ∈ moved.2, state = core.stage moved.1) :
    Conforms allowed start before ((move raises moved).after (turn.note effect)) :=
  conforms_move ambient (conforms.note permitted path) current

theorem keeps_retry {stage : State} (permitted : allowed (.retry stage)) :
    Fallible.Keeps (Conforms allowed start before) (retry raises stage : Act core PUnit) := by
  intro turn conforms
  rw [after_retry]
  obtain ⟨same, called⟩ := core.retry_spec turn.session.download stage
  refine conforms_call ambient conforms permitted (fun labels path => ?_) fun state member => ?_
  · rw [same]
    exact path.other
  · exact (called state member).trans same.symm

theorem keeps_bump (permitted : allowed .bump) :
    Fallible.Keeps (Conforms allowed start before) (bump raises : Act core PUnit) := by
  intro turn conforms
  rw [after_bump]
  obtain ⟨same, called⟩ := core.bump_spec turn.session.download
  refine conforms_call ambient conforms permitted (fun labels path => ?_) fun state member => ?_
  · rw [same]
    exact path.other
  · exact (called state member).trans same.symm

theorem keeps_check {stage : State} (member : stage ∈ stages)
    (permitted : allowed (.check stage)) :
    Fallible.Keeps (Conforms allowed start before) (check raises stage : Act core PUnit) := by
  intro turn conforms
  rw [after_check]
  by_cases current : core.stage turn.session.download = stage
  · subst current
    obtain ⟨next, called⟩ := core.check_current turn.session.download member
    obtain ⟨rest, here, there⟩ := State.remaining_eq_cons member
    refine conforms_call ambient conforms permitted (fun labels path => ?_) fun state asked => ?_
    · rw [next, there]
      rw [left, here] at path
      exact path.pass
    · rw [called, Option.mem_some_iff] at asked
      rw [next, asked]
  · obtain ⟨same, called⟩ := core.check_other turn.session.download stage current
    refine conforms_call ambient conforms permitted (fun labels path => ?_) fun state asked => ?_
    · rw [same]
      exact path.stale stage
    · rw [called] at asked
      cases asked

/-- A download begins with all stages left. -/
theorem conforms_begin (turn : Turn core) :
    Conforms allowed (some stages) (turn.effects ++ [.begin]) ((begin raises).after turn) := by
  rw [after_begin]
  obtain ⟨first, called⟩ := core.begin_spec turn.session.download
  have current : ∀ state ∈ (core.begin turn.session.download).2,
      state = core.stage (core.begin turn.session.download).1 := by
    intro state asked
    rw [called, Option.mem_some_iff] at asked
    rw [first, asked]
  rw [show some stages = (core.stage (core.begin turn.session.download).1).remaining by
    rw [first]; rfl]
  exact conforms_after_call ambient turn .begin current

end Conforms

/-! ## Responses -/

/-- What processing a response leaves behind: what the handler of a success
leaves, or what was there, with what the error handler keeps. -/
theorem inv_processResponse {Inv : Turn core → Prop} {errorHandler : Act core PUnit}
    {successHandler : String → Act core PUnit} (onError : Fallible.Keeps Inv errorHandler)
    (response : RestResponse)
    (onSuccess : ∀ body, response = .ok (.success, body) →
      Inv ((successHandler body).after turn))
    (inv : (∀ body, response ≠ .ok (.success, body)) → Inv turn) :
    Inv ((processResponse response errorHandler successHandler).after turn) := by
  refine Fallible.inv_tryCatch ?_ fun exception => by cases exception <;> exact onError
  cases response with
  | error exception => exact inv (by simp)
  | ok result =>
    obtain ⟨category, body⟩ := result
    cases category with
    | success => exact onSuccess body rfl
    | clientError | serverError => exact onError turn (inv (by simp))
    | other => exact inv (by simp)

/-- The text was decoded, or nothing happened. -/
theorem inv_decoded_bind {Inv : Turn core → Prop} {α β : Type} {result : Except Exception α}
    {next : α → Act core β} (inv : Inv turn)
    (ok : ∀ value, result = .ok value → Inv ((next value).after turn)) :
    Inv ((decoded result >>= next).after turn) := by
  cases result with
  | ok value => exact ok value rfl
  | error exception => exact inv

/-- The `error` array of a body, as the decoder of the stage has it. -/
def Decoders.errors (decoders : Decoders) : State → String → Option (List String)
  | .undefined, _ => none
  | .token, body => (decoders.tokenAck body).toOption.map (·.error)
  | .balance, body => (decoders.balanceAck body).toOption.map (·.error)
  | .tradeBalance, body => (decoders.tradeBalanceAck body).toOption.map (·.error)
  | .openPositions, body => (decoders.openPositionsAck body).toOption.map (·.error)
  | .openOrders, body => (decoders.openOrdersAck body).toOption.map (·.error)
  | .done, _ => none

/-- The bodies that a handler lets pass. -/
def Accepts (decoders : Decoders) (stage : State) (body : String) : Prop :=
  match stage with
  | .token => decoders.errors .token body = some []
  | .tradeBalance => True
  | stage => (decoders.errors stage body).isSome = true

/-- Does it carry a part of a decoded response? -/
def Effect.isResult : Effect → Bool
  | .tokenUpdate .. => true
  | .dispatch (.fundsUpdate _) => true
  | _ => false

/-- A response the session looks at: it succeeded and is not stale. -/
def Current (session : OrderEntry core) (stage : State) (response : RestResponse)
    (sequence : UInt32) (body : String) : Prop :=
  response = .ok (.success, body) ∧ core.skip session.download sequence stage = false

theorem keeps_onBalanceAck (balanceAck : Json.BalanceAck)
    (permitted : ∀ effect : Effect, effect.isResult = true → allowed effect) :
    Fallible.Keeps (Conforms allowed start before)
      (onBalanceAck decoders raises balanceAck : Act core PUnit) := by
  refine Fallible.keeps_forM (fun item turn conforms => ?_) _
  refine inv_decoded_bind conforms fun balance _ => ?_
  rw [Fallible.after_get_bind, after_perform]
  exact conforms.note (permitted _ rfl) fun labels path => path.other

section Ack

variable (ambient : ∀ effect : Effect, effect.isAmbient = true → allowed effect)
  {stage : State} {response : RestResponse} {sequence : UInt32}
include ambient

/-- A response is retried, or is current and accepted. -/
theorem conforms_ack {accept : String → Act core PUnit} (retried : allowed (.retry stage))
    (onSuccess : ∀ body, Current turn.session stage response sequence body →
      Conforms allowed start before ((accept body).after turn))
    (conforms : Conforms allowed start before turn) :
    Conforms allowed start before ((ack raises stage accept response sequence).after turn) := by
  refine inv_processResponse (keeps_retry ambient retried) response ?_ fun _ => conforms
  intro body success
  rw [Fallible.after_get_bind]
  cases stale : core.skip turn.session.download sequence stage with
  | true => exact conforms
  | false => exact onSuccess body ⟨success, stale⟩

/-- What a handler may do besides its retries, it may do because of a response
that is current and that it accepts. -/
theorem conforms_onAck (retried : allowed (.retry stage))
    (accepted : ∀ body, Current turn.session stage response sequence body →
      Accepts decoders stage body →
        allowed (.check stage) ∧ ∀ effect : Effect, effect.isResult = true → allowed effect)
    (conforms : Conforms allowed start before turn) :
    Conforms allowed start before
      ((onAck decoders raises stage response sequence).after turn) := by
  cases stage with
  | undefined | done => exact conforms
  | token =>
    simp only [onAck, getTokenAck]
    refine conforms_ack ambient retried (fun body current => ?_) conforms
    refine inv_decoded_bind conforms fun tokenAck ok => ?_
    by_cases empty : tokenAck.error.isEmpty = true
    · rw [if_pos empty]
      have accepts : Accepts decoders .token body := by
        simp [Accepts, Decoders.errors, ok, Except.toOption, List.isEmpty_iff.mp empty]
      obtain ⟨checked, results⟩ := accepted body current accepts
      refine Fallible.inv_bind ?_ fun _ => keeps_check ambient (by decide) checked
      unfold onTokenAck
      rw [Fallible.after_get_bind, after_perform]
      exact conforms.note (results _ rfl) fun labels path => path.other
    · rw [if_neg empty]
      exact keeps_retry ambient retried turn conforms
  | balance =>
    simp only [onAck, getBalanceAck]
    refine conforms_ack ambient retried (fun body current => ?_) conforms
    refine inv_decoded_bind conforms fun balanceAck ok => ?_
    have accepts : Accepts decoders .balance body := by
      simp [Accepts, Decoders.errors, ok, Except.toOption]
    obtain ⟨checked, results⟩ := accepted body current accepts
    refine Fallible.inv_bind (keeps_onBalanceAck balanceAck results turn conforms) fun _ => ?_
    exact keeps_check ambient (by decide) checked
  | tradeBalance =>
    simp only [onAck, getTradeBalanceAck]
    refine conforms_ack ambient retried (fun body current => ?_) conforms
    exact keeps_check ambient (by decide) (accepted body current trivial).1 turn conforms
  | openPositions =>
    simp only [onAck, getOpenPositionsAck]
    refine conforms_ack ambient retried (fun body current => ?_) conforms
    refine inv_decoded_bind conforms fun value ok => ?_
    refine keeps_check ambient (by decide) (accepted body current ?_).1 turn conforms
    simp [Accepts, Decoders.errors, ok, Except.toOption]
  | openOrders =>
    simp only [onAck, getOpenOrdersAck]
    refine conforms_ack ambient retried (fun body current => ?_) conforms
    refine inv_decoded_bind conforms fun value ok => ?_
    refine keeps_check ambient (by decide) (accepted body current ?_).1 turn conforms
    simp [Accepts, Decoders.errors, ok, Except.toOption]

/-- The token handler retries on an error, and does nothing but ambient things
and further retries. -/
theorem conforms_token_error {body error : String} {errors : List String}
    (retried : allowed (.retry .token))
    (current : Current turn.session .token response sequence body)
    (found : decoders.errors .token body = some (error :: errors)) :
    Conforms allowed turn.session.left (turn.effects ++ [.retry .token])
      ((getTokenAck decoders raises response sequence).after turn) := by
  obtain ⟨rfl, fresh⟩ := current
  cases decodes : decoders.tokenAck body with
  | error exception => simp [Decoders.errors, decodes, Except.toOption] at found
  | ok tokenAck =>
    have rejected : tokenAck.error = error :: errors := by
      simpa [Decoders.errors, decodes, Except.toOption] using found
    obtain ⟨same, called⟩ := core.retry_spec turn.session.download .token
    refine inv_processResponse (keeps_retry ambient retried) _ (fun body' success => ?_)
      fun other => absurd rfl (other body)
    cases success
    rw [Fallible.after_get_bind, if_neg (by simp [fresh])]
    beta_reduce
    rw [decodes, after_decoded_ok_bind, if_neg (by simp [rejected]), after_retry]
    rw [left, ← same]
    exact conforms_after_call ambient turn (.retry .token) fun state asked =>
      (called state asked).trans same.symm

end Ack

/-! ## Turns -/

/-- The event is a current response that the handler of the stage accepts. -/
def Accepted (decoders : Decoders) (stage : State) (session : OrderEntry core) (event : Event) :
    Prop :=
  ∃ response sequence body, event.input = .ack stage response sequence ∧
    Current session stage response sequence body ∧ Accepts decoders stage body

/-- **What a turn does.**  It begins a download first, or not at all; it is staged
work; and it checks a stage only because of a response of that stage which is
current and accepted. -/
structure TurnSpec (decoders : Decoders) (session : OrderEntry core) (event : Event)
    (session' : OrderEntry core) (out : List Effect) : Prop where
  work : (.begin ∉ out ∧ Path stages session.left (out.map Effect.label) session'.left) ∨
    ∃ rest, out = .begin :: rest ∧ .begin ∉ rest ∧ (∀ stage, .check stage ∉ rest) ∧
      Path stages (some stages) (rest.map Effect.label) session'.left
  checked : ∀ stage, .check stage ∈ out → Accepted decoders stage session event

/-- What a turn that begins no download may do. -/
def Permitted (decoders : Decoders) (session : OrderEntry core) (event : Event)
    (effect : Effect) : Prop :=
  effect ≠ .begin ∧ ∀ stage, effect = .check stage → Accepted decoders stage session event

/-- A turn that begins no download. -/
theorem turnSpec_of_conforms {session : OrderEntry core} {event : Event}
    (conforms : Conforms (Permitted decoders session event) session.left [] turn) :
    TurnSpec decoders session event turn.session turn.effects := by
  obtain ⟨effects, same, all, path⟩ := conforms
  rw [List.nil_append] at same
  subst same
  exact ⟨.inl ⟨fun begun => (all _ begun).1 rfl, path⟩,
    fun stage member => (all _ member).2 stage rfl⟩

variable {session session' : OrderEntry core} {event : Event} {out : List Effect}

/-- The spec of a step. -/
theorem step_turnSpec (stepped : step decoders session event = some (session', out)) :
    TurnSpec decoders session event session' out := by
  cases stepped
  have fresh : Conforms (Permitted decoders session event) session.left [] { session } :=
    conforms_refl _
  have ambient : ∀ effect : Effect, effect.isAmbient = true →
      Permitted decoders session event effect := by
    intro effect isAmbient
    cases effect <;> simp_all [Permitted, Effect.isAmbient]
  obtain ⟨input, raises⟩ := event
  cases input with
  | connected =>
    unfold onInput onConnected
    rw [Fallible.after_get_bind]
    split
    · exact turnSpec_of_conforms (keeps_bump ambient (by simp [Permitted]) _ fresh)
    · have begun : Conforms (fun effect => effect ≠ .begin ∧ ∀ stage, effect ≠ .check stage)
          (some stages) [.begin] ((begin raises).after { session }) := by
        refine conforms_begin (fun effect isAmbient => ?_) { session }
        cases effect <;> simp_all [Effect.isAmbient]
      obtain ⟨rest, same, all, path⟩ := begun
      refine ⟨.inr ⟨rest, same, fun begun => (all _ begun).1 rfl,
        fun stage member => (all _ member).2 stage rfl, path⟩, fun stage member => ?_⟩
      rw [same] at member
      have later : .check stage ∈ rest := by simpa using member
      exact absurd rfl ((all _ later).2 stage)
  | disconnected =>
    refine turnSpec_of_conforms (Fallible.inv_bind ?_ fun _ => ?_)
    · exact (quiet_conforms ambient).keeps_onConnectionStatus (by decide) _ _ fresh
    · refine Fallible.keeps_get_bind fun turn => ?_
      split
      · exact Fallible.keeps_pure _
      · exact keeps_reset (by simp [Permitted])
  | latency sample =>
    refine turnSpec_of_conforms ?_
    unfold onInput onLatency
    rw [Fallible.after_get_bind, after_perform]
    exact fresh.note (by simp [Permitted]) fun labels path => path.other
  | ack stage response sequence =>
    refine turnSpec_of_conforms (conforms_onAck ambient (by simp [Permitted]) ?_ fresh)
    intro body current accepts
    have accepted : Accepted decoders stage session ⟨.ack stage response sequence, raises⟩ :=
      ⟨response, sequence, body, rfl, current, accepts⟩
    refine ⟨⟨by simp, fun other same => ?_⟩, fun effect isResult => ?_⟩
    · cases same
      exact accepted
    · cases effect <;> simp_all [Permitted, Effect.isResult]

end OrderEntry

end RoqKraken.Gateway
