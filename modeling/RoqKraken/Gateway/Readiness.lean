import RoqKraken.Gateway.Isolation
import RoqKraken.Gateway.Responses

/-!
# What a ready account can rely on

A client sees that the REST session of an account is ready, and goes on from there.
`readiness_run` is what it can rely on then: since the download began, the session has
published every balance of a response, in order, and handed a token to the controller,
so that the account has its private session.  What was raised in between makes no
difference, for a stage is left only by a turn in which nothing was raised before.
-/

namespace RoqKraken.Gateway

namespace OrderEntry

open Fallible

variable {core : Download2} {decoders : Decoders} {raises : Nat → Option Exception}
  {session session' : OrderEntry core} {stage : State} {event : Event} {out : List Effect}

/-! ## What the responses amount to -/

/-- The funds that a turn publishes. -/
def fundsUpdates (out : List Effect) : List FundsUpdate :=
  out.filterMap fun
    | .dispatch (.fundsUpdate update) => some update
    | _ => none

/-- What a balance is published as. -/
def Publishes (decoders : Decoders) (streamId : UInt16) (account : String)
    (item : Json.BalanceAckResultItem) (update : FundsUpdate) : Prop :=
  ∃ balance, decoders.fromStringRelaxed item.value = .ok balance ∧
    update = { streamId, account, currency := item.key, balance, updateType := .snapshot }

/-- A response with balances, and all of them are published in order. -/
def Funded (decoders : Decoders) (streamId : UInt16) (account : String)
    (entry : Event × List Effect) : Prop :=
  ∃ body sequence balanceAck,
    entry.1.input = .ack .balance (.ok (.success, body)) sequence ∧
    decoders.balanceAck body = .ok balanceAck ∧
    List.Forall₂ (Publishes decoders streamId account) balanceAck.result (fundsUpdates entry.2)

/-- The first thing that is done is to hand over a token, and the controller takes it. -/
def Handed (account : String) (entry : Event × List Effect) : Prop :=
  entry.1.raises 0 = none ∧ ∃ token later, entry.2 = .tokenUpdate account token :: later

theorem fundsUpdates_append (left right : List Effect) :
    fundsUpdates (left ++ right) = fundsUpdates left ++ fundsUpdates right :=
  List.filterMap_append

theorem fundsUpdates_map (updates : List FundsUpdate) :
    fundsUpdates (updates.map fun update => .dispatch (.fundsUpdate update)) = updates := by
  simp [fundsUpdates, List.filterMap_map]

theorem fundsUpdates_eq_nil (none : ∀ effect ∈ out, effect.isResult = false) :
    fundsUpdates out = [] := by
  refine List.filterMap_eq_nil_iff.mpr fun effect member => ?_
  have plain := none effect member
  cases effect with
  | dispatch event =>
    cases event with
    | fundsUpdate update => cases plain
    | _ => rfl
  | _ => rfl

/-! ## Turns that leave a stage -/

/-- A stage is checked only where the attempt gets to the check. -/
theorem attempt_of_check (member : stage ∈ stages) {sequence : UInt32} {response : RestResponse}
    (fresh : core.skip session.download sequence stage = false)
    (checked : .check stage ∈
      ((onAck decoders raises stage response sequence).after { session }).effects) :
    ∃ calls, attempt decoders raises stage response = .check calls := by
  have progressed : .check stage ∈
      progress ((onAck decoders raises stage response sequence).after { session }).effects :=
    List.mem_filter.mpr ⟨checked, rfl⟩
  rw [progress_onAck member fun _ _ => fresh, List.mem_append] at progressed
  rcases progressed with attempted | retried
  · cases made : attempt decoders raises stage response with
    | check calls => exact ⟨calls, rfl⟩
    | abandoned | retry => simp [made, Attempt.calls] at attempted
  · split at retried <;> simp at retried

/-- After the check, a turn hands on nothing more of the response. -/
theorem conforms_checked {accept : String → Act core PUnit} {body : String} {sequence : UInt32}
    {turn : Turn core} (handler : onAck decoders raises stage = ack raises stage accept)
    (member : stage ∈ stages) (fresh : core.skip session.download sequence stage = false)
    (accepts : (accept body).after { session } = (check raises stage).after turn) :
    Conforms (fun effect => effect.isResult = false) turn.session.left turn.effects
      ((onAck decoders raises stage (.ok (.success, body)) sequence).after { session }) := by
  have ambient : ∀ effect : Effect, effect.isAmbient = true → effect.isResult = false := by
    intro effect isAmbient
    rcases effect with ⟨_ | _⟩ | _ <;> simp_all [Effect.isAmbient, Effect.isResult]
  rw [handler]
  refine inv_processResponse (keeps_retry ambient rfl) _ (fun other success => ?_)
    fun other => absurd rfl (other body)
  cases success
  rw [after_get_bind, if_neg (by simp [fresh]), accepts]
  exact keeps_check ambient member rfl turn (conforms_refl turn)

/-- A turn that leaves the token behind has handed it over before. -/
theorem handed_of_check (stepped : step decoders session event = some (session', out))
    (checked : .check .token ∈ out) : Handed session.account (event, out) := by
  obtain ⟨response, sequence, body, input, ⟨rfl, fresh⟩, -⟩ :=
    (step_turnSpec stepped).checked .token checked
  cases stepped
  simp only [onInput, input] at checked ⊢
  obtain ⟨calls, made⟩ := attempt_of_check (by decide) fresh checked
  simp only [attempt, attemptBody] at made
  split at made
  · cases made
  next tokenAck decodes =>
  split at made
  · next good =>
    split at made
    · next calm =>
      have calm : event.raises 0 = none := Option.isNone_iff_eq_none.mp calm
      let accept : String → Act core PUnit := fun body =>
        decoded (decoders.tokenAck body) >>= fun tokenAck =>
          if tokenAck.error.isEmpty then
            onTokenAck event.raises tokenAck >>= fun _ => check event.raises .token
          else retry event.raises .token
      let noted := Turn.note { session } (.tokenUpdate session.account tokenAck.result.token)
      have ran : Runs (onTokenAck event.raises tokenAck) { session } (.ok ⟨⟩) noted := by
        have performed := runs_perform event.raises
          (.tokenUpdate session.account tokenAck.result.token) ({ session } : Turn core)
        rw [List.length_nil, calm] at performed
        exact runs_get_bind performed
      have reaches : (accept body).after { session } = (check event.raises .token).after noted := by
        simp only [accept]
        rw [decodes, after_decoded_ok_bind, if_pos good, ran.after_bind]
      have handler : onAck decoders event.raises .token = ack event.raises .token accept := by
        rw [onAck, getTokenAck]
      obtain ⟨later, same, -⟩ := conforms_checked handler (by decide) fresh reaches
      exact ⟨calm, tokenAck.result.token, later, same⟩
    · cases made
  · cases made

/-- Where nothing raises, the loop publishes every balance. -/
theorem runs_onBalanceAck_published (errors : List String)
    {items : List Json.BalanceAckResultItem} {turn : Turn core}
    (passes : fundsPass decoders raises turn.effects.length items = true) :
    ∃ updates last, List.Forall₂ (Publishes decoders turn.session.streamId turn.session.account)
        items updates ∧
      last.effects = turn.effects ++ updates.map (fun update => .dispatch (.fundsUpdate update)) ∧
      Runs (onBalanceAck decoders raises ⟨errors, items⟩) turn (.ok ⟨⟩) last := by
  induction items generalizing turn with
  | nil => exact ⟨[], turn, .nil, by simp, runs_pure _ _⟩
  | cons item items ih =>
    rw [fundsPass, Bool.and_eq_true, Bool.and_eq_true] at passes
    obtain ⟨⟨converts, calm⟩, rest⟩ := passes
    obtain ⟨balance, converts⟩ : ∃ balance,
        decoders.fromStringRelaxed item.value = .ok balance := by
      cases result : decoders.fromStringRelaxed item.value with
      | ok balance => exact ⟨balance, rfl⟩
      | error exception => simp [result, Except.isOk, Except.toBool] at converts
    let update : FundsUpdate :=
      { streamId := turn.session.streamId
        account := turn.session.account
        currency := item.key
        balance
        updateType := .snapshot }
    have first : Runs (decoded (decoders.fromStringRelaxed item.value) : Act core Float) turn
        (.ok balance) turn := by
      rw [converts]
      exact runs_pure balance turn
    let noted := turn.note (.dispatch (.fundsUpdate update))
    have performed : Runs (perform raises (.dispatch (.fundsUpdate update))) turn (.ok ⟨⟩) noted := by
      have ran := runs_perform raises (.dispatch (.fundsUpdate update)) turn
      rwa [Option.isNone_iff_eq_none.mp calm] at ran
    obtain ⟨updates, last, published, effects, ran⟩ := @ih noted
      (by simpa [noted, Turn.note] using rest)
    refine ⟨update :: updates, last, .cons ⟨balance, converts, rfl⟩ published, ?_, ?_⟩
    · simpa [noted, Turn.note] using effects
    · have second : Runs (get >>= fun turn : Turn core =>
          perform raises (.dispatch (.fundsUpdate
            { streamId := turn.session.streamId
              account := turn.session.account
              currency := item.key
              balance
              updateType := .snapshot }))) turn (.ok ⟨⟩) noted := runs_get_bind performed
      exact (first.bind second).bind ran

/-- A turn that leaves the balances behind has published them. -/
theorem funded_of_check (stepped : step decoders session event = some (session', out))
    (checked : .check .balance ∈ out) :
    Funded decoders session.streamId session.account (event, out) := by
  obtain ⟨response, sequence, body, input, ⟨rfl, fresh⟩, -⟩ :=
    (step_turnSpec stepped).checked .balance checked
  cases stepped
  simp only [onInput, input] at checked
  obtain ⟨calls, made⟩ := attempt_of_check (by decide) fresh checked
  simp only [attempt, attemptBody] at made
  split at made
  · cases made
  next balanceAck decodes =>
  split at made
  · next passes =>
    obtain ⟨updates, last, published, effects, ran⟩ := @runs_onBalanceAck_published core decoders event.raises
      balanceAck.error balanceAck.result { session } passes
    let accept : String → Act core PUnit := fun body =>
      decoded (decoders.balanceAck body) >>= fun balanceAck =>
        onBalanceAck decoders event.raises balanceAck >>= fun _ => check event.raises .balance
    have reaches : (accept body).after { session } = (check event.raises .balance).after last := by
      simp only [accept]
      rw [decodes, after_decoded_ok_bind, ran.after_bind]
    have handler : onAck decoders event.raises .balance = ack event.raises .balance accept := by
      rw [onAck, getBalanceAck]
    obtain ⟨later, same, silent, -⟩ := conforms_checked handler (by decide) fresh reaches
    refine ⟨body, sequence, balanceAck, input, decodes, ?_⟩
    simp only [onInput, input, same]
    rw [effects, List.nil_append, fundsUpdates_append, fundsUpdates_map,
      fundsUpdates_eq_nil silent, List.append_nil]
    exact published
  · cases made

/-! ## Runs -/

/-- What the turn has done that leaves a stage behind. -/
def Settled (decoders : Decoders) (streamId : UInt16) (account : String) :
    State → Event × List Effect → Prop
  | .token => Handed account
  | .balance => Funded decoders streamId account
  | _ => fun _ => True

theorem settled_run {streamId : UInt16} {account : String} {events : List Event}
    {log : List (Event × List Effect)}
    (ran : (step decoders).run (create core streamId account) events = some (session', log)) :
    Throughout (fun past entry => publishesReady entry.2 = true → ∀ stage ∈ stages,
      Since Begins (Settled decoders streamId account stage) (past ++ [entry])) log := by
  have checks := @Step.along_of_inv _ _ _ (step decoders) (create core streamId account) events
    (fun _ event out => ∀ stage, .check stage ∈ out →
      Settled decoders streamId account stage (event, out))
    (fun session => session.streamId = streamId ∧ session.account = account) ?_ ⟨rfl, rfl⟩
  · exact ready_run ran checks (congrArg State.remaining core.stage_initial)
  · rintro session event session' out ⟨rfl, rfl⟩ stepped
    refine ⟨step_constant stepped, fun stage checked => ?_⟩
    cases stage with
    | token => exact handed_of_check stepped checked
    | balance => exact funded_of_check stepped checked
    | _ => trivial

end OrderEntry

namespace System

variable {core : Symbols} {download : OrderEntry.Download2} {decoders : OrderEntry.Decoders}
  {server : Server} {settings : Settings} {config : Config} {system : System core download}
  {events : List Event} {log : List (Event × List Emitted)}

/-- A token that is handed over reaches the table of private sessions. -/
theorem exists_handedToken {account : String} {entry : OrderEntry.Event × List OrderEntry.Effect}
    (member : entry ∈ log.flatMap (orderEntryTrace account))
    (handed : OrderEntry.Handed account entry) :
    ∃ token, log.findSome? (handedToken account) = some token := by
  obtain ⟨⟨event, out⟩, listed, traced⟩ := List.mem_flatMap.mp member
  rw [← Option.isSome_iff_exists, List.findSome?_isSome_iff]
  refine ⟨_, listed, ?_⟩
  cases event with
  | controller => cases traced
  | orderEntry name event =>
    rw [orderEntryTrace] at traced
    split at traced
    · next same =>
      subst same
      cases List.mem_singleton.mp traced
      obtain ⟨calm, token, later, first⟩ := handed
      have first : effectsOf name out = .tokenUpdate name token :: later := first
      have calm : event.raises 0 = none := calm
      simp [handedToken, controllerTrace, first, System.handed, calm, Controller.firstToken,
        Controller.Event.tokenFor]
    · cases traced

/-- **Ready accounts.**  When the REST session of an account publishes that it is ready, it
has, since its download began, handed a token to the controller and published all balances
of a response; and from then on the account has its private session. -/
theorem readiness_run
    (ran : (step decoders server settings).run (create core download config) events =
      some (system, log)) {account : String} (member : account ∈ config.accounts) :
    ∃ streamId, (Controller.create core config).orderEntry.lookup account = some streamId ∧
      Throughout (fun past entry => OrderEntry.publishesReady entry.2 = true →
        Since OrderEntry.Begins (OrderEntry.Handed account) (past ++ [entry]) ∧
        Since OrderEntry.Begins (OrderEntry.Funded decoders streamId account) (past ++ [entry]))
        (log.flatMap (orderEntryTrace account)) ∧
      ((∃ entry ∈ log.flatMap (orderEntryTrace account),
          OrderEntry.publishesReady entry.2 = true) →
        ∃ session, system.controller.dropCopy.lookup account = some (some session)) := by
  obtain ⟨streamId, drawn⟩ := lookup_orderEntry_of_mem core member
  obtain ⟨session, -, own⟩ := orderEntry_run ran drawn
  have settled := OrderEntry.settled_run own
  refine ⟨streamId, drawn, ?_, ?_⟩
  · intro past entry later split ready
    have all := settled past entry later split ready
    exact ⟨all .token (by decide), all .balance (by decide)⟩
  · rintro ⟨entry, listed, ready⟩
    obtain ⟨past, later, split⟩ := List.append_of_mem listed
    obtain ⟨earlier, there, handed⟩ :=
      (settled past entry later split ready .token (by decide)).exists_mem
    have within : earlier ∈ log.flatMap (orderEntryTrace account) := by
      rw [split]
      rw [List.mem_append, List.mem_singleton] at there
      rcases there with before | rfl
      · exact List.mem_append_left _ before
      · exact List.mem_append_right _ (List.mem_cons_self ..)
    obtain ⟨token, found⟩ := exists_handedToken within handed
    have known := entry_run ran account
    rw [if_pos member, found, Controller.entry] at known
    obtain ⟨session, there, same⟩ := Option.map_eq_some_iff.mp known
    cases session with
    | none => cases same
    | some session => exact ⟨session, there⟩

/-- An account with one balance. -/
def balanceBody : String :=
  r#"{"error":[],"result":{"ZUSD":"1.5"}}"#

def balanceDecoders : OrderEntry.Decoders :=
  { OrderEntry.sampleDecoders with
    balanceAck := fun body =>
      if body = balanceBody then .ok ⟨[], [⟨"ZUSD", "1.5"⟩]⟩ else .error .std
    fromStringRelaxed := fun text => if text = "1.5" then .ok 1.5 else .error .std }

theorem readiness_run_balance :
    ∃ (system : System (Symbols.chunked 128 (by decide)) OrderEntry.countingDownload)
      (log : List (Event × List Emitted)),
      (step balanceDecoders ⟨255, fun _ => false⟩ {}).run (create _ _ ⟨["A1"], by decide⟩)
        ((OrderEntry.replies balanceBody).map (.orderEntry "A1")) = some (system, log) ∧
      ∃ streamId, Throughout (fun past entry => OrderEntry.publishesReady entry.2 = true →
        Since OrderEntry.Begins (OrderEntry.Handed "A1") (past ++ [entry]) ∧
        Since OrderEntry.Begins (OrderEntry.Funded balanceDecoders streamId "A1")
          (past ++ [entry])) (log.flatMap (orderEntryTrace "A1")) ∧
      ∃ session, system.controller.dropCopy.lookup "A1" = some (some session) := by
  have ran : ((step balanceDecoders ⟨255, fun _ => false⟩ {}).run
      (create (Symbols.chunked 128 (by decide)) OrderEntry.countingDownload ⟨["A1"], by decide⟩)
      ((OrderEntry.replies balanceBody).map (.orderEntry "A1"))).any (fun result =>
        (result.2.flatMap (orderEntryTrace "A1")).any fun entry =>
          OrderEntry.publishesReady entry.2) = true := by
    decide +kernel
  obtain ⟨⟨system, log⟩, ran, ready⟩ := Option.any_eq_true _ _ |>.mp ran
  obtain ⟨streamId, -, since, present⟩ := @readiness_run _ _ _ _ _ _ _ _ _ ran "A1" (by decide)
  exact ⟨system, log, ran, streamId, since, present (List.any_eq_true.mp ready)⟩

end System

end RoqKraken.Gateway
