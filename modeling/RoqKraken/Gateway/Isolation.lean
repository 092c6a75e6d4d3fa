import RoqKraken.Gateway.StreamTables
import RoqKraken.Gateway.Tokens

/-!
# Accounts do not interfere

The gateway serves all accounts in one process, from shared tables and one counter
of stream ids.  Its runs are still put together from runs of the sessions alone:
`orderEntry_run` for the REST session of an account, `dropCopy_run` for its private
session, which starts with the token that was handed over.  So what an account
sends depends on the events of its own sessions, `account_isolated`, whatever other
accounts, clients and public streams do in between.
-/

namespace RoqKraken.Gateway

/-! ## Private sessions in the controller -/

namespace Controller

variable {core : Symbols} {server : Server} {settings : Settings}
  {controller controller' : Controller core} {event : Event} {out : List (Source × Output)}

/-- What an event is for the private session of an account. -/
def Event.ofSession (settings : Settings) (account : String) : Event → Option DropCopy.Event
  | .dropCopy name received => if name = account then some received else none
  | .request asked =>
    if settings.wsApi = true ∧ asked.account = account then some (.request asked) else none
  | _ => none

/-- What one stream puts out. -/
def outputsBy (source : Source) (out : List (Source × Output)) : List Output :=
  (out.filter fun entry => entry.1 = source).map Prod.snd

@[simp] theorem outputsBy_nil (source : Source) : outputsBy source [] = [] := rfl

@[simp] theorem outputsBy_append (source : Source) (left right : List (Source × Output)) :
    outputsBy source (left ++ right) = outputsBy source left ++ outputsBy source right := by
  simp [outputsBy]

@[simp] theorem outputsBy_tag (source from_ : Source) (outputs : List Output) :
    outputsBy source (tag from_ outputs) = if from_ = source then outputs else [] := by
  by_cases same : from_ = source <;>
    simp [outputsBy, tag, List.filter_map, Function.comp_def, same]

theorem outputsBy_flatMap_marketData (account : String) (streams : List MarketData)
    (outputs : MarketData → List Output) :
    outputsBy (.dropCopy account) (streams.flatMap fun session =>
      tag (.marketData session.index) (outputs session)) = [] := by
  induction streams with
  | nil => rfl
  | cons session streams ih => simp [List.flatMap_cons, ih]

/-- The sessions in the table are those of their keys. -/
def Owned (controller : Controller core) : Prop :=
  ∀ account session, controller.dropCopy.lookup account = some (some session) →
    session.account = account

/-- The private session of an account at an event: it handles the event, there is no
such account, it is created, or it stays as it is. -/
inductive AtSession (server : Server) (settings : Settings) (account : String)
    (controller controller' : Controller core) (event : Event) (outputs : List Output) : Prop
  | handles {received : DropCopy.Event} {session next : DropCopy}
    (ofSession : event.ofSession settings account = some received)
    (before : controller.dropCopy.lookup account = some (some session))
    (handled : session.step server settings received = some (next, outputs))
    (after : controller'.dropCopy.lookup account = some (some next))
  | unknown (before : controller.dropCopy.lookup account = none)
    (after : controller'.dropCopy.lookup account = none) (silent : outputs = [])
  | created {token : String} (update : event = .tokenUpdate account token)
    (before : controller.dropCopy.lookup account = some none)
    (after : ∃ streamId, controller'.dropCopy.lookup account =
      some (some { streamId, account, token }))
    (silent : outputs = [])
  | unchanged (ofSession : event.ofSession settings account = none)
    (same : controller'.dropCopy.lookup account = controller.dropCopy.lookup account)
    (silent : outputs = [])

/-- A request of the web-socket API reaches the private session of its account only. -/
theorem request_atSession (owned : controller.Owned) {request : DropCopy.Request}
    (stepped : step server settings controller (.request request) = some (controller', out))
    (account : String) : AtSession server settings account controller controller'
      (.request request) (outputsBy (.dropCopy account) out) := by
  by_cases own : settings.wsApi = true ∧ request.account = account
  · obtain ⟨mode, rfl⟩ := own
    simp only [step, onRequest, mode, if_true, getDropCopy] at stepped
    cases found : controller.dropCopy.lookup request.account with
    | none =>
      simp only [found] at stepped
      cases stepped
      exact .unknown found found rfl
    | some session =>
      cases session with
      | none =>
        simp only [found] at stepped
        cases stepped
      | some session =>
        simp only [found] at stepped
        cases stepped
        refine @AtSession.handles _ _ _ _ _ _ _ _ (.request request) session session ?_ found ?_
          found
        · simp [Event.ofSession, mode]
        · simp [DropCopy.step, owned _ _ found]
  · obtain ⟨rfl, rfl | ⟨session, found, rfl⟩⟩ := step_request stepped
    · exact .unchanged (by simp [Event.ofSession, own]) rfl rfl
    · have mode : settings.wsApi = true := by
        by_contra off
        have off : settings.wsApi = false := by simpa using off
        simp only [step, onRequest, off, Bool.false_eq_true, if_false] at stepped
        split at stepped
        · next handled => split at handled <;> cases handled
        · cases stepped
        · cases stepped
      refine .unchanged (by simp [Event.ofSession, own]) rfl ?_
      have other : session.account ≠ account := by
        rw [owned _ _ found]
        exact fun same => own ⟨mode, same⟩
      simp [other]

/-- A token creates the private session of its account, if that is vacant. -/
theorem tokenUpdate_atSession {name token : String}
    (stepped : step server settings controller (.tokenUpdate name token) =
      some (controller', out))
    (account : String) : AtSession server settings account controller controller'
      (.tokenUpdate name token) (outputsBy (.dropCopy account) out) := by
  obtain ⟨updated, rfl⟩ := step_tokenUpdate stepped
  unfold onTokenUpdate at updated
  split at updated
  · cases updated
  · cases updated
    exact .unchanged rfl rfl rfl
  · next vacant =>
    cases updated
    by_cases same : name = account
    · subst same
      refine .created rfl vacant ⟨controller.streamId + 1, ?_⟩ rfl
      simp [lookup_assign, vacant]
    · refine .unchanged rfl ?_ rfl
      simp [lookup_assign, Ne.symm same]

/-- One event of the gateway, as the private session of an account sees it. -/
theorem step_atSession (owned : controller.Owned)
    (stepped : step server settings controller event = some (controller', out))
    (account : String) : AtSession server settings account controller controller' event
      (outputsBy (.dropCopy account) out) := by
  cases event with
  | dropCopy name received =>
    obtain ⟨session, next, outputs, found, first, rfl, rfl⟩ := step_dropCopy stepped
    by_cases same : name = account
    · subst same
      refine .handles (if_pos rfl) found (by simpa using first) ?_
      simp [lookup_assign, found]
    · refine .unchanged (by simp [Event.ofSession, same]) ?_ (by simp [same])
      simp [lookup_assign, Ne.symm same]
  | request request => exact request_atSession owned stepped account
  | tokenUpdate name token => exact tokenUpdate_atSession stepped account
  | marketData index received =>
    have table := dropCopy_marketData stepped
    obtain ⟨session, result, -, -, ⟨-, -, rfl⟩ | ⟨-, rfl⟩⟩ := step_marketData stepped
    · exact .unchanged rfl (by rw [table]) (by simp)
    · exact .unchanged rfl (by rw [table])
        (by simp [onSymbolsUpdate, outputsBy_flatMap_marketData])
  | subscribe symbols =>
    cases stepped
    refine .unchanged rfl (congrArg _ (dropCopy_onSymbolsUpdate _)) ?_
    exact outputsBy_flatMap_marketData ..
  | symbolsUpdate symbols =>
    cases stepped
    refine .unchanged rfl (congrArg _ (dropCopy_onSymbolsUpdate _)) ?_
    exact outputsBy_flatMap_marketData ..
  | timer now =>
    cases stepped
    exact .unchanged rfl rfl (outputsBy_flatMap_marketData ..)
  | start | stop =>
    cases stepped
    exact .unchanged rfl rfl rfl

theorem owned_step (owned : controller.Owned)
    (stepped : step server settings controller event = some (controller', out)) :
    controller'.Owned := by
  intro account session found
  cases step_atSession owned stepped account with
  | handles _ before handled after =>
    cases after.symm.trans found
    rw [(DropCopy.step_constant handled).2.1]
    exact owned account _ before
  | unknown _ after => cases after.symm.trans found
  | created _ _ after =>
    obtain ⟨streamId, after⟩ := after
    cases after.symm.trans found
    rfl
  | unchanged _ same => exact owned account session (same.symm.trans found)

/-- The events of the private session of an account in one entry of a log, with what it
put out. -/
def sessionTrace (settings : Settings) (account : String)
    (entry : Event × List (Source × Output)) : List (DropCopy.Event × List Output) :=
  ((entry.1.ofSession settings account).map fun received =>
    (received, outputsBy (.dropCopy account) entry.2)).toList

/-- What the private session of an account has put out is what it does alone, from its
start with its token. -/
structure Alone (server : Server) (settings : Settings) (account : String)
    (controller : Controller core) (past : List (Event × List (Source × Output))) : Prop where
  outputs : past.flatMap (fun entry => outputsBy (.dropCopy account) entry.2) =
    DropCopy.outputs (past.flatMap (sessionTrace settings account))
  vacant : controller.dropCopy.lookup account = some none →
    past.flatMap (sessionTrace settings account) = []
  session : ∀ session, controller.dropCopy.lookup account = some (some session) →
    (DropCopy.step server settings).run
        { streamId := session.streamId, account, token := session.token }
        ((past.flatMap (sessionTrace settings account)).map Prod.fst) =
      some (session, past.flatMap (sessionTrace settings account))

theorem Alone.step {account : String} {past : List (Event × List (Source × Output))}
    (alone : controller.Alone server settings account past) (owned : controller.Owned)
    (stepped : step server settings controller event = some (controller', out)) :
    controller'.Alone server settings account (past ++ [(event, out)]) := by
  cases step_atSession owned stepped account with
  | @handles received session next ofSession before handled after =>
    have trace : sessionTrace settings account (event, out) =
        [(received, outputsBy (.dropCopy account) out)] := by
      simp [sessionTrace, ofSession]
    refine ⟨?_, fun vacant => ?_, fun found there => ?_⟩
    · simp [alone.outputs, trace, DropCopy.outputs]
    · cases after.symm.trans vacant
    · cases after.symm.trans there
      obtain ⟨sameId, -, sameToken⟩ := DropCopy.step_constant handled
      rw [List.flatMap_append, List.flatMap_singleton, trace, List.map_append, sameId, sameToken]
      exact Step.run_append (alone.session session before)
        (Step.run_cons.mpr ⟨next, _, [], handled, rfl, rfl⟩)
  | unknown before after silent =>
    refine ⟨?_, fun vacant => ?_, fun found there => ?_⟩
    · cases ofSession : event.ofSession settings account <;>
        simp [alone.outputs, silent, sessionTrace, ofSession, DropCopy.outputs]
    · cases after.symm.trans vacant
    · cases after.symm.trans there
  | @created token update before after silent =>
    obtain ⟨streamId, after⟩ := after
    have trace : sessionTrace settings account (event, out) = [] := by
      rw [sessionTrace, update]
      rfl
    refine ⟨?_, fun vacant => ?_, fun found there => ?_⟩
    · simp [alone.outputs, silent, trace]
    · cases after.symm.trans vacant
    · cases after.symm.trans there
      rw [List.flatMap_append, List.flatMap_singleton, trace, alone.vacant before]
      rfl
  | unchanged ofSession same silent =>
    have trace : sessionTrace settings account (event, out) = [] := by
      simp [sessionTrace, ofSession]
    refine ⟨?_, fun vacant => ?_, fun found there => ?_⟩
    · simp [alone.outputs, silent, trace]
    · rw [List.flatMap_append, List.flatMap_singleton, trace, alone.vacant (same ▸ vacant)]
      rfl
    · rw [List.flatMap_append, List.flatMap_singleton, trace, List.append_nil]
      exact alone.session found (same ▸ there)

theorem owned_create (config : Config) : (create core config).Owned := by
  intro account session found
  rw [create, lookup_createDropCopy] at found
  split at found <;> cases found

theorem alone_create (config : Config) (account : String) :
    (create core config).Alone server settings account [] := by
  refine ⟨rfl, fun _ => rfl, fun session found => ?_⟩
  rw [create, lookup_createDropCopy] at found
  split at found <;> cases found

end Controller

/-! ## Sessions in the gateway -/

namespace System

open Controller (firstToken outputsBy)

variable {core : Symbols} {download : OrderEntry.Download2} {decoders : OrderEntry.Decoders}
  {server : Server} {settings : Settings} {config : Config} {system system' : System core download}
  {event : Event} {events : List Event} {out : List Emitted} {log : List (Event × List Emitted)}

/-- The events of the REST session of an account in one entry of a log, with what it
did. -/
def orderEntryTrace (account : String) :
    Event × List Emitted → List (OrderEntry.Event × List OrderEntry.Effect)
  | (.controller .., _) => []
  | (.orderEntry name event, out) =>
    if name = account then [(event, effectsOf account out)] else []

/-- The events of the private session of an account in one entry of a log, with what
it put out. -/
def dropCopyTrace (settings : Settings) (account : String) (entry : Event × List Emitted) :
    List (DropCopy.Event × List Output) :=
  (controllerTrace entry).flatMap (Controller.sessionTrace settings account)

/-- What the private session of an account puts out. -/
def outputsOf (account : String) (out : List Emitted) : List Output :=
  outputsBy (.dropCopy account) (streamOutputs out)

/-- The REST session of an account does in the gateway what it does alone. -/
theorem simulates_orderEntry (account : String) :
    Step.Simulates (step decoders server settings) (OrderEntry.step decoders)
      (fun (system : System core download) session =>
        system.orderEntry.lookup account = some session) (orderEntryTrace account) := by
  intro system event system' out session found stepped
  cases event with
  | controller event external =>
    obtain ⟨controller, outputs, -, rfl, -⟩ := step_controller stepped
    exact ⟨session, rfl, found⟩
  | orderEntry name event =>
    obtain ⟨here, next, effects, controller, there, turn, -, rfl, rfl⟩ := step_orderEntry stepped
    by_cases same : name = account
    · subst same
      cases found.symm.trans there
      refine ⟨next, ?_, ?_⟩
      · simp only [orderEntryTrace, if_true, effectsOf_orderEntry]
        exact Step.run_cons.mpr ⟨next, effects, [], turn, rfl, rfl⟩
      · simp [lookup_replace, there]
    · refine ⟨session, ?_, ?_⟩
      · simp [orderEntryTrace, same, Step.run]
      · simp [lookup_replace, Ne.symm same, found]

theorem lookup_create (account : String) :
    (create core download config).orderEntry.lookup account =
      ((Controller.create core config).orderEntry.lookup account).map
        fun streamId => OrderEntry.create download streamId account := by
  have general : ∀ table : List (String × UInt16),
      (table.map fun entry =>
          (entry.1, OrderEntry.create download entry.2 entry.1)).lookup account =
        (table.lookup account).map fun streamId => OrderEntry.create download streamId account := by
    intro table
    induction table with
    | nil => rfl
    | cons entry table ih =>
      obtain ⟨name, streamId⟩ := entry
      by_cases same : account = name
      · simp [same]
      · simpa [List.lookup_cons, beq_false_of_ne same] using ih
  exact general _

theorem lookup_orderEntry_of_mem (core : Symbols) {account : String}
    (member : account ∈ config.accounts) :
    ∃ streamId, (Controller.create core config).orderEntry.lookup account = some streamId := by
  have keys : (Controller.create core config).orderEntry.map Prod.fst = config.accounts :=
    (@Controller.sound_create core config).orderEntry
  rw [← keys] at member
  obtain ⟨entry, listed, rfl⟩ := List.mem_map.mp member
  exact Option.isSome_iff_exists.mp (List.lookup_isSome_iff.mpr ⟨entry, listed, beq_self_eq_true _⟩)

/-- **The REST session of an account.**  In every run of the gateway it makes a run of
its own. -/
theorem orderEntry_run
    (ran : (step decoders server settings).run (create core download config) events =
      some (system, log))
    {account : String} {streamId : UInt16}
    (drawn : (Controller.create core config).orderEntry.lookup account = some streamId) :
    ∃ session, system.orderEntry.lookup account = some session ∧
      (OrderEntry.step decoders).run (OrderEntry.create download streamId account)
          ((log.flatMap (orderEntryTrace account)).map Prod.fst) =
        some (session, log.flatMap (orderEntryTrace account)) := by
  have found : (create core download config).orderEntry.lookup account =
      some (OrderEntry.create download streamId account) := by
    rw [lookup_create, drawn, Option.map_some]
  obtain ⟨session, own, last⟩ := (simulates_orderEntry account).run found ran
  exact ⟨session, last, own⟩

/-! ## Private sessions -/

theorem trace_outputs (stepped : step decoders server settings system event =
      some (system', out)) (source : Source) :
    (controllerTrace (event, out)).flatMap (fun entry => outputsBy source entry.2) =
      outputsBy source (streamOutputs out) := by
  cases event with
  | controller event external => simp [controllerTrace]
  | orderEntry name event =>
    obtain ⟨session, next, effects, controller, -, -, -, rfl, rfl⟩ := step_orderEntry stepped
    rw [streamOutputs_orderEntry, Controller.outputsBy_nil, List.flatMap_eq_nil_iff]
    intro entry member
    simp only [controllerTrace, List.mem_filterMap] at member
    obtain ⟨⟨effect, index⟩, -, made⟩ := member
    cases effect with
    | tokenUpdate holder token =>
      simp only [handed] at made
      split at made
      · cases made
        rfl
      · cases made
    | _ => cases made

/-- What one stream puts out in a run, and in the events of the controller. -/
theorem trace_outputs_run (ran : (step decoders server settings).run system events =
      some (system', log)) (source : Source) :
    log.flatMap (fun entry => outputsBy source (streamOutputs entry.2)) =
      (log.flatMap controllerTrace).flatMap fun entry => outputsBy source entry.2 := by
  refine @Step.run_induction _ _ _ _ _ _ _ _
    (fun (_ : System core download) past =>
      past.flatMap (fun entry => outputsBy source (streamOutputs entry.2)) =
        (past.flatMap controllerTrace).flatMap fun entry => outputsBy source entry.2) [] ran ?_ rfl
  intro system past event system' out _ inv stepped
  simp only [List.flatMap_append, List.flatMap_singleton, inv, trace_outputs stepped]

theorem kept_alone (account : String) : Kept server settings
    fun (controller : Controller core) past =>
      controller.Owned ∧ controller.Alone server settings account past where
  step _ _ _ _ _ _ inv stepped :=
    ⟨Controller.owned_step inv.1 stepped, inv.2.step inv.1 stepped⟩
  skip _ _ inv := ⟨inv.1, ⟨inv.2.outputs, inv.2.vacant, inv.2.session⟩⟩

theorem outputsOf_run
    (ran : (step decoders server settings).run (create core download config) events =
      some (system, log)) (account : String) :
    log.flatMap (fun entry => outputsOf account entry.2) =
      DropCopy.outputs (log.flatMap (dropCopyTrace settings account)) := by
  have alone := (controller_run (kept_alone account) ran
    ⟨Controller.owned_create config, Controller.alone_create config account⟩).2.outputs
  refine (trace_outputs_run ran (.dropCopy account)).trans ?_
  rw [alone, List.flatMap_assoc]
  rfl

/-- The session of an account was created with the token handed over first. -/
theorem lookup_dropCopy_token
    (ran : (step decoders server settings).run (create core download config) events =
      some (system, log))
    {account : String} {session : DropCopy}
    (found : system.controller.dropCopy.lookup account = some (some session)) :
    log.findSome? (handedToken account) = some session.token := by
  have known := entry_run ran account
  rw [Controller.entry, found] at known
  split at known
  · obtain ⟨token, handed, same⟩ := Option.map_eq_some_iff.mp (Option.some_inj.mp known).symm
    cases same
    exact handed
  · cases known

theorem lookup_dropCopy_run
    (ran : (step decoders server settings).run (create core download config) events =
      some (system, log))
    {account : String} {session : DropCopy}
    (found : system.controller.dropCopy.lookup account = some (some session)) :
    (DropCopy.step server settings).run
        { streamId := session.streamId, account, token := session.token }
        ((log.flatMap (dropCopyTrace settings account)).map Prod.fst) =
      some (session, log.flatMap (dropCopyTrace settings account)) := by
  have alone := (controller_run (kept_alone account) ran
    ⟨Controller.owned_create config, Controller.alone_create config account⟩).2.session
    session found
  rwa [List.flatMap_assoc] at alone

/-- **The private session of an account.**  In every run of the gateway it makes a run of
its own, which starts with the token handed over first, and puts nothing else out. -/
theorem dropCopy_run
    (ran : (step decoders server settings).run (create core download config) events =
      some (system, log))
    {account : String} {session : DropCopy}
    (found : system.controller.dropCopy.lookup account = some (some session)) :
    log.findSome? (handedToken account) = some session.token ∧
      (DropCopy.step server settings).run
          { streamId := session.streamId, account, token := session.token }
          ((log.flatMap (dropCopyTrace settings account)).map Prod.fst) =
        some (session, log.flatMap (dropCopyTrace settings account)) ∧
      log.flatMap (fun entry => outputsOf account entry.2) =
        DropCopy.outputs (log.flatMap (dropCopyTrace settings account)) :=
  ⟨lookup_dropCopy_token ran found, lookup_dropCopy_run ran found, outputsOf_run ran account⟩

theorem dropCopy_run_signIn :
    ∃ (system : System (Symbols.chunked 128 (by decide)) OrderEntry.countingDownload)
      (log : List (Event × List Emitted)) (session : DropCopy),
      (step OrderEntry.sampleDecoders ⟨255, fun _ => false⟩ {}).run (create _ _ ⟨["A1"], by decide⟩)
        signIn = some (system, log) ∧
      system.controller.dropCopy.lookup "A1" = some (some session) ∧
      log.findSome? (handedToken "A1") = some session.token ∧
        (DropCopy.step ⟨255, fun _ => false⟩ {}).run
            { streamId := session.streamId, account := "A1", token := session.token }
            ((log.flatMap (dropCopyTrace {} "A1")).map Prod.fst) =
          some (session, log.flatMap (dropCopyTrace {} "A1")) ∧
        log.flatMap (fun entry => outputsOf "A1" entry.2) =
          DropCopy.outputs (log.flatMap (dropCopyTrace {} "A1")) := by
  refine ⟨_, _, _, rfl, rfl, ?_⟩
  exact @dropCopy_run (Symbols.chunked 128 (by decide)) OrderEntry.countingDownload
    OrderEntry.sampleDecoders ⟨255, fun _ => false⟩ {} ⟨["A1"], by decide⟩ _ signIn _ rfl "A1" _ rfl

/-! ## Noninterference -/

/-- The token a turn of a REST session hands over for its account. -/
def grantedToken (account : String) (turn : OrderEntry.Event × List OrderEntry.Effect) :
    Option String :=
  firstToken account ((turn.2.zipIdx.filterMap (handed turn.1.raises)).map Prod.fst)

/-- Tokens come from the REST session of the account. -/
theorem handedToken_eq_granted
    (ran : (step decoders server settings).run (create core download config) events =
      some (system, log)) (account : String) :
    log.findSome? (handedToken account) =
      (log.flatMap (orderEntryTrace account)).findSome? (grantedToken account) := by
  have grants := (named_run ran).2
  clear ran
  induction log with
  | nil => rfl
  | cons entry log ih =>
    have later := ih fun past other rest split =>
      grants (entry :: past) other rest (by rw [split]; rfl)
    rw [List.flatMap_cons, List.findSome?_append, List.findSome?_cons, later]
    obtain ⟨event, out⟩ := entry
    have here := grants [] (event, out) log rfl account
    cases event with
    | controller event external =>
      cases found : handedToken account (.controller event external, out) with
      | none => rfl
      | some token => exact (here token found).elim
    | orderEntry name event =>
      by_cases same : name = account
      · subst same
        simp only [orderEntryTrace, if_true, List.findSome?_singleton]
        cases found : handedToken name (.orderEntry name event, out) with
        | none =>
          have none : grantedToken name (event, effectsOf name out) = none := found
          rw [none]
          rfl
        | some token =>
          have some : grantedToken name (event, effectsOf name out) = some token := found
          rw [some]
          rfl
      · cases found : handedToken account (.orderEntry name event, out) with
        | none => simp [orderEntryTrace, same]
        | some token => exact absurd (here token found).1 same

/-- The frames of a private session alone, event by event. -/
theorem frames_of_mem_dropCopy_run {session session' : DropCopy} {received : List DropCopy.Event}
    {trace : List (DropCopy.Event × List Output)}
    (ran : (DropCopy.step server settings).run session received = some (session', trace)) :
    ∀ entry ∈ trace, frames entry.2 = entry.1.sends session.token := by
  induction received generalizing session trace with
  | nil =>
    obtain ⟨-, rfl⟩ := Step.run_nil.mp ran
    simp
  | cons event received ih =>
    obtain ⟨next, outputs, rest, first, tail, rfl⟩ := Step.run_cons.mp ran
    refine List.forall_mem_cons.mpr ⟨DropCopy.step_frames first, ?_⟩
    rw [← (DropCopy.step_constant first).2.2]
    exact ih tail

theorem frames_outputs {token : String} {trace : List (DropCopy.Event × List Output)}
    (each : ∀ entry ∈ trace, frames entry.2 = entry.1.sends token) :
    frames (DropCopy.outputs trace) =
      trace.flatMap fun entry => entry.1.sends token := by
  induction trace with
  | nil => rfl
  | cons entry trace ih =>
    obtain ⟨here, later⟩ := List.forall_mem_cons.mp each
    rw [DropCopy.outputs_cons, frames_append, here, ih later, List.flatMap_cons]

/-- What the private session of an account sends, event by event: nothing before its token,
and then what the event asks for. -/
theorem frames_of_mem_dropCopyTrace
    (ran : (step decoders server settings).run (create core download config) events =
      some (system, log)) {account token : String} (member : account ∈ config.accounts)
    (handed : log.findSome? (handedToken account) = some token) :
    ∀ entry ∈ log.flatMap (dropCopyTrace settings account),
      frames entry.2 = entry.1.sends token := by
  have known := entry_run ran account
  rw [if_pos member, Controller.entry, handed] at known
  obtain ⟨session, found, same⟩ := Option.map_eq_some_iff.mp known
  cases session with
  | none => cases same
  | some session =>
    have own := (lookup_dropCopy_token ran found).symm.trans handed
    have each := frames_of_mem_dropCopy_run (lookup_dropCopy_run ran found)
    rwa [Option.some_inj.mp own] at each

theorem dropCopyTrace_of_no_token
    (ran : (step decoders server settings).run (create core download config) events =
      some (system, log)) {account : String} (member : account ∈ config.accounts)
    (handed : log.findSome? (handedToken account) = none) :
    log.flatMap (dropCopyTrace settings account) = [] := by
  have known := entry_run ran account
  rw [if_pos member, Controller.entry, handed] at known
  obtain ⟨session, found, same⟩ := Option.map_eq_some_iff.mp known
  cases session with
  | some session => cases same
  | none =>
    have alone := (controller_run (kept_alone account) ran
      ⟨Controller.owned_create config, Controller.alone_create config account⟩).2.vacant found
    rwa [List.flatMap_assoc] at alone

/-- What goes out on the private connection of an account. -/
theorem frames_run
    (ran : (step decoders server settings).run (create core download config) events =
      some (system, log)) {account : String} (member : account ∈ config.accounts) :
    frames (log.flatMap fun entry => outputsOf account entry.2) =
      (log.findSome? (handedToken account)).elim [] fun token =>
        ((log.flatMap (dropCopyTrace settings account)).map Prod.fst).flatMap
          (DropCopy.Event.sends token) := by
  rw [outputsOf_run ran]
  cases handed : log.findSome? (handedToken account) with
  | none =>
    rw [dropCopyTrace_of_no_token ran member handed]
    rfl
  | some token =>
    rw [frames_outputs (frames_of_mem_dropCopyTrace ran member handed), Option.elim_some,
      List.flatMap_map]

/-- **Accounts do not interfere.**  In two runs of the gateway, under any other events and
any answers of the server, an account whose own sessions see the same events does the
same on its REST session and sends the same on its private one. -/
theorem account_isolated {core' : Symbols} {server' : Server} {settings' : Settings}
    {events' : List Event} {other : System core' download} {log' : List (Event × List Emitted)}
    {account : String} (member : account ∈ config.accounts)
    (ran : (step decoders server settings).run (create core download config) events =
      some (system, log))
    (ran' : (step decoders server' settings').run (create core' download config) events' =
      some (other, log'))
    (sameRest : (log.flatMap (orderEntryTrace account)).map Prod.fst =
      (log'.flatMap (orderEntryTrace account)).map Prod.fst)
    (samePrivate : (log.flatMap (dropCopyTrace settings account)).map Prod.fst =
      (log'.flatMap (dropCopyTrace settings' account)).map Prod.fst) :
    log.flatMap (orderEntryTrace account) = log'.flatMap (orderEntryTrace account) ∧
      frames (log.flatMap fun entry => outputsOf account entry.2) =
        frames (log'.flatMap fun entry => outputsOf account entry.2) := by
  obtain ⟨streamId, drawn⟩ := lookup_orderEntry_of_mem core member
  obtain ⟨session, -, own⟩ := orderEntry_run ran drawn
  obtain ⟨session', -, own'⟩ := orderEntry_run ran' drawn
  have rest : log.flatMap (orderEntryTrace account) = log'.flatMap (orderEntryTrace account) := by
    rw [sameRest, own', Option.some.injEq, Prod.mk.injEq] at own
    exact own.2.symm
  refine ⟨rest, ?_⟩
  rw [frames_run ran member, frames_run ran' member, handedToken_eq_granted ran,
    handedToken_eq_granted ran', rest, samePrivate]

/-- The account signs in while another one asks for its token and a client subscribes. -/
def signInAmongOthers : List Event :=
  [.orderEntry "A2" { input := .connected },
    .orderEntry "A1" { input := .connected },
    .controller (.subscribe ["BTC/USD"]) trivial,
    .orderEntry "A2" { input := .ack .token (.ok (.success, OrderEntry.tokenBody)) 1 },
    .orderEntry "A1" { input := .ack .token (.ok (.success, OrderEntry.tokenBody)) 1 },
    .controller (.dropCopy "A2" .ready) trivial,
    .controller (.dropCopy "A1" (.message .status fun _ => none)) trivial]

theorem account_isolated_signIn :
    ∃ (system other : System (Symbols.chunked 128 (by decide)) OrderEntry.countingDownload)
      (log log' : List (Event × List Emitted)),
      (step OrderEntry.sampleDecoders ⟨255, fun _ => false⟩ {}).run
        (create _ _ ⟨["A1", "A2"], by decide⟩) signIn = some (system, log) ∧
      (step OrderEntry.sampleDecoders ⟨255, fun _ => false⟩ {}).run
        (create _ _ ⟨["A1", "A2"], by decide⟩) signInAmongOthers = some (other, log') ∧
      log.flatMap (orderEntryTrace "A1") = log'.flatMap (orderEntryTrace "A1") ∧
        frames (log.flatMap fun entry => outputsOf "A1" entry.2) =
          frames (log'.flatMap fun entry => outputsOf "A1" entry.2) := by
  refine ⟨_, _, _, _, rfl, rfl, ?_⟩
  exact @account_isolated (Symbols.chunked 128 (by decide)) OrderEntry.countingDownload
    OrderEntry.sampleDecoders ⟨255, fun _ => false⟩ {} ⟨["A1", "A2"], by decide⟩ _ signIn _
    (Symbols.chunked 128 (by decide)) ⟨255, fun _ => false⟩ {} signInAmongOthers _ _ "A1"
    (by decide) rfl rfl rfl rfl

end System

end RoqKraken.Gateway
