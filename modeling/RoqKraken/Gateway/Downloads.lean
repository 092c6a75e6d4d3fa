import RoqKraken.Gateway.DownloadSteps

/-!
# When a REST session is ready

A session publishes `ready` at the end of a download.  It does so only after a
response for every stage that the handler of the stage accepted,
`readyMeansAccepted_run`.  These are good responses if none carried an error past
a handler that does not look at errors, `readyMeansDownloaded_run`; only the
handler of the token looks.
-/

namespace RoqKraken.Gateway

namespace OrderEntry

open Staged

variable {core : Download2} {decoders : Decoders} {effect : Effect}
  {session session' : OrderEntry core} {event : Event} {out : List Effect}

/-! ## Ready -/

/-- Does the session publish that it is ready? -/
def publishesReady (out : List Effect) : Bool := out.any Effect.isReady

/-- An entry of a log that begins a download. -/
def Begins (entry : Event × List Effect) : Prop := .begin ∈ entry.2

/-- The response of a stage with HTTP success and an empty `error` array. -/
def Succeeds (decoders : Decoders) (stage : State) (entry : Event × List Effect) : Prop :=
  ∃ sequence body, entry.1.input = .ack stage (.ok (.success, body)) sequence ∧
    decoders.errors stage body = some []

theorem label_eq_pass {stage : State} (passed : effect.label = .pass stage) :
    effect = .check stage := by
  cases effect with
  | check other =>
    cases passed
    rfl
  | dispatch event =>
    unfold Effect.label at passed
    simp only at passed
    split at passed <;> cases passed
  | _ => cases passed

theorem label_eq_begin (begun : effect.label = .begin) : effect = .begin := by
  cases effect with
  | begin => rfl
  | dispatch event =>
    unfold Effect.label at begun
    simp only at begun
    split at begun <;> cases begun
  | _ => cases begun

theorem label_of_isReady (ready : effect.isReady = true) : effect.label = .finish := by
  cases effect with
  | dispatch event => exact if_pos ready
  | _ => cases ready

theorem mem_of_pass_mem {stage : State} (member : .pass stage ∈ out.map Effect.label) :
    .check stage ∈ out := by
  obtain ⟨effect, found, passed⟩ := List.mem_map.mp member
  exact label_eq_pass passed ▸ found

theorem begin_notMem_labels (noBegin : .begin ∉ out) : .begin ∉ out.map Effect.label := by
  intro member
  obtain ⟨effect, found, begun⟩ := List.mem_map.mp member
  exact noBegin (label_eq_begin begun ▸ found)

theorem finish_mem_of_publishesReady (ready : publishesReady out = true) :
    .finish ∈ out.map Effect.label := by
  obtain ⟨effect, member, isReady⟩ := List.any_eq_true.mp ready
  exact List.mem_map.mpr ⟨effect, member, label_of_isReady isReady⟩

/-- Every stage that is not left any more has had an entry with `P` since the
download began. -/
def Progressed (P : State → Event × List Effect → Prop) (session : OrderEntry core)
    (past : List (Event × List Effect)) : Prop :=
  ∀ rest, session.left = some rest →
    ∀ stage ∈ stages, stage ∈ rest ∨ Since Begins (P stage) past

section Ready

variable {P : State → Event × List Effect → Prop} {past : List (Event × List Effect)}

/-- A step keeps the progress, if its checks are entries with `P`. -/
theorem progressed_step (stepped : step decoders session event = some (session', out))
    (checks : ∀ stage, .check stage ∈ out → P stage (event, out))
    (progressed : Progressed P session past) :
    Progressed P session' (past ++ [(event, out)]) := by
  intro rest now stage member
  rcases (step_turnSpec stepped).work with ⟨noBegin, path⟩ | ⟨later, same, noBegin, noCheck, path⟩
  · obtain ⟨before, started, passed⟩ := path.passed (begin_notMem_labels noBegin) now
    rcases progressed before started stage member with waiting | done
    · rcases passed stage waiting with waiting | passed
      · exact .inl waiting
      · exact .inr (since_concat_of_last (checks stage (mem_of_pass_mem passed)))
    · exact .inr (done.concat noBegin)
  · obtain ⟨before, started, passed⟩ := path.passed (begin_notMem_labels noBegin) now
    cases started
    rcases passed stage member with waiting | passed
    · exact .inl waiting
    · exact absurd (mem_of_pass_mem passed) (noCheck stage)

/-- A step that publishes `ready` follows an entry with `P` for every stage. -/
theorem ready_step (stepped : step decoders session event = some (session', out))
    (checks : ∀ stage, .check stage ∈ out → P stage (event, out))
    (progressed : Progressed P session past) (ready : publishesReady out = true) {stage : State}
    (member : stage ∈ stages) : Since Begins (P stage) (past ++ [(event, out)]) := by
  have finished := finish_mem_of_publishesReady ready
  rcases (step_turnSpec stepped).work with ⟨noBegin, path⟩ | ⟨later, same, noBegin, noCheck, path⟩
  · obtain ⟨before, started, passed⟩ :=
      path.passed_of_finish (begin_notMem_labels noBegin) finished
    rcases progressed before started stage member with waiting | done
    · exact since_concat_of_last (checks stage (mem_of_pass_mem (passed stage waiting)))
    · exact done.concat noBegin
  · have finished' : .finish ∈ later.map Effect.label := by
      simpa [same, Effect.label] using finished
    obtain ⟨before, started, passed⟩ :=
      path.passed_of_finish (begin_notMem_labels noBegin) finished'
    cases started
    exact absurd (mem_of_pass_mem (passed stage member)) (noCheck stage)

/-- **Run rule for `ready`.**  If all checks of a run are entries with `P`, a
session publishes `ready` only after such an entry for every stage. -/
theorem ready_run {events : List Event} {log : List (Event × List Effect)}
    (ran : (step decoders).run session events = some (session', log))
    (checks : Step.Along (step decoders)
      (fun _ event out => ∀ stage, .check stage ∈ out → P stage (event, out)) session events)
    (fresh : session.left = none) :
    Throughout (fun past entry => publishesReady entry.2 = true →
      ∀ stage ∈ stages, Since Begins (P stage) (past ++ [entry])) log := by
  have inv := @Step.run_induction_along _ _ _ _ _ _ _ _ _
    (fun session past => Progressed P session past ∧
      Throughout (fun past entry => publishesReady entry.2 = true →
        ∀ stage ∈ stages, Since Begins (P stage) (past ++ [entry])) past)
    [] ran checks ?_ ?_
  · exact inv.2
  · rintro session past event session' out checks ⟨progressed, throughout⟩ stepped
    exact ⟨progressed_step stepped checks progressed,
      throughout.concat fun ready stage member =>
        ready_step stepped checks progressed ready member⟩
  · refine ⟨fun rest now => ?_, throughout_nil⟩
    rw [fresh] at now
    cases now

end Ready

/-- A session is ready only after a response for every stage that succeeded and
that its handler accepted. -/
theorem readyMeansAccepted_run {streamId : UInt16} {account : String} {events : List Event}
    {log : List (Event × List Effect)}
    (ran : (step decoders).run (create core streamId account) events = some (session', log)) :
    Throughout (fun past entry => publishesReady entry.2 = true → ∀ stage ∈ stages,
      Since Begins (fun entry => ∃ sequence body,
        entry.1.input = .ack stage (.ok (.success, body)) sequence ∧
        Accepts decoders stage body) (past ++ [entry])) log := by
  refine ready_run ran (Step.along_of_mem fun event _ session session' out stepped => ?_) ?_
  · intro stage checked
    obtain ⟨response, sequence, body, input, current, accepts⟩ :=
      (step_turnSpec stepped).checked stage checked
    exact ⟨sequence, body, by rw [input, current.1], accepts⟩
  · exact congrArg State.remaining core.stage_initial

/-! ## Errors -/

/-- No current response that succeeded carries an error past a handler that does
not look at errors: those after the first stage. -/
def NoHiddenError (decoders : Decoders) (session : OrderEntry core) (event : Event) : Prop :=
  ∀ stage response sequence body, event.input = .ack stage response sequence →
    Current session stage response sequence body → stage ≠ .token →
      (∀ errors ∈ decoders.errors stage body, errors = []) ∧
      (stage = .tradeBalance → (decoders.errors stage body).isSome = true)

/-- A current response with an error is retried; it is not checked, and nothing
of its result is dispatched. -/
def RetriesErrors (decoders : Decoders) (session : OrderEntry core) (event : Event)
    (out : List Effect) : Prop :=
  ∀ stage response sequence body error errors, event.input = .ack stage response sequence →
    Current session stage response sequence body →
    decoders.errors stage body = some (error :: errors) →
      .retry stage ∈ out ∧
      ∀ effect ∈ out, effect.isResult = false ∧ ∀ other, effect ≠ .check other

/-- What is checked without a hidden error has succeeded. -/
theorem succeeds_of_check (stepped : step decoders session event = some (session', out))
    (noHidden : NoHiddenError decoders session event) {stage : State}
    (checked : .check stage ∈ out) : Succeeds decoders stage (event, out) := by
  obtain ⟨response, sequence, body, input, current, accepts⟩ :=
    (step_turnSpec stepped).checked stage checked
  refine ⟨sequence, body, by rw [input, current.1], ?_⟩
  by_cases first : stage = .token
  · subst first
    exact accepts
  · obtain ⟨empty, read⟩ := noHidden stage response sequence body input current first
    have decodes : (decoders.errors stage body).isSome = true := by
      cases stage with
      | token => exact absurd rfl first
      | tradeBalance => exact read rfl
      | _ => exact accepts
    obtain ⟨errors, found⟩ := Option.isSome_iff_exists.mp decodes
    rw [found, empty errors found]

/-- The token handler looks at errors. -/
theorem retriesErrors_of_noHiddenError
    (stepped : step decoders session event = some (session', out))
    (noHidden : NoHiddenError decoders session event) :
    RetriesErrors decoders session event out := by
  intro stage response sequence body error errors input current found
  by_cases first : stage = .token
  · subst first
    have ambient : ∀ effect : Effect, effect.isAmbient = true →
        effect.isResult = false ∧ ∀ other, effect ≠ .check other := by
      intro effect isAmbient
      rcases effect with ⟨_ | _⟩ | _ <;> simp_all [Effect.isAmbient, Effect.isResult]
    have retried : (Effect.retry .token).isResult = false ∧
        ∀ other, Effect.retry .token ≠ .check other := by simp [Effect.isResult]
    have conforms : Conforms _ session.left [.retry .token]
        ((getTokenAck decoders event.raises response sequence).after { session }) :=
      conforms_token_error ambient retried current found
    obtain ⟨effects, same, all, -⟩ := conforms
    have turn : out = .retry .token :: effects := by
      cases stepped
      rw [List.singleton_append] at same
      simpa only [onInput, input, onAck] using same
    refine ⟨by simp [turn], fun effect member => ?_⟩
    rw [turn] at member
    rcases List.mem_cons.mp member with rfl | member
    · exact retried
    · exact all effect member
  · have empty := (noHidden stage response sequence body input current first).1 _ found
    cases empty

/-- A session is ready only after a good response for every stage since the
download began, and errors are retried. -/
def ReadyMeansDownloaded (decoders : Decoders) (session : OrderEntry core) (events : List Event)
    (log : List (Event × List Effect)) : Prop :=
  Throughout (fun past entry => publishesReady entry.2 = true →
    ∀ stage ∈ stages, Since Begins (Succeeds decoders stage) (past ++ [entry])) log ∧
  Step.Along (step decoders) (RetriesErrors decoders) session events

/-- **Ready means downloaded**, in the runs without a hidden error. -/
theorem readyMeansDownloaded_run {streamId : UInt16} {account : String} {events : List Event}
    {log : List (Event × List Effect)}
    (ran : (step decoders).run (create core streamId account) events = some (session', log))
    (noHidden : Step.Along (step decoders)
      (fun session event _ => NoHiddenError decoders session event)
      (create core streamId account) events) :
    ReadyMeansDownloaded decoders (create core streamId account) events log := by
  constructor
  · refine ready_run ran (noHidden.imp fun session event session' out stepped noHidden => ?_) ?_
    · exact fun stage checked => succeeds_of_check stepped noHidden checked
    · exact congrArg State.remaining core.stage_initial
  · exact noHidden.imp fun session event session' out stepped noHidden =>
      retriesErrors_of_noHiddenError stepped noHidden

/-! ## A concrete download -/

/-- A download that counts its requests. -/
def countingDownload : Download2 where
  Data := State × UInt32
  initial := (.undefined, 0)
  stage data := data.1
  downloading data := data.1 ∈ stages
  sequence data := data.2
  skip data sequence state := sequence ≠ data.2 ∨ state ≠ data.1
  begin data := ((.token, data.2 + 1), some .token)
  bump data := ((data.1, data.2 + 1), some data.1)
  retry data state := if state = data.1 then ((data.1, data.2 + 1), some data.1) else (data, none)
  check data state :=
    if state = data.1 then ((data.1.next, data.2 + 1), some data.1.next) else (data, none)
  reset data := (.undefined, data.2)
  settle data _ := data
  stage_initial := rfl
  begin_spec _ := ⟨rfl, rfl⟩
  bump_spec _ := by simp
  retry_spec data state := by split <;> simp
  retry_current _ := by simp
  check_current _ _ := by simp
  check_other _ _ other := by simp [Ne.symm other]
  reset_spec _ := rfl
  settle_spec _ _ := .inl rfl

def tokenBody : String :=
  r#"{"error":[],"result":{"expires":900,"token":"T"}}"#

def emptyBody : String := r#"{"error":[],"result":{}}"#

def tradeBalanceBody : String :=
  r#"{"error":[],"result":{"eb":"0.0000"}}"#

def openOrdersBody : String := r#"{"error":[],"result":{"open":{}}}"#

/-- What the exchange answers when it limits the rate of requests. -/
def limitBody : String := r#"{"error":["EAPI:Rate limit exceeded"]}"#

/-- The decoders on these bodies. -/
def sampleDecoders : Decoders where
  tokenAck body := if body = tokenBody then .ok ⟨[], ⟨"T"⟩⟩ else .error .std
  balanceAck body :=
    if body = emptyBody then .ok ⟨[], []⟩
    else if body = limitBody then .ok ⟨["EAPI:Rate limit exceeded"], []⟩
    else .error .std
  tradeBalanceAck body := if body = tradeBalanceBody then .ok ⟨[]⟩ else .error .std
  openPositionsAck body := if body = emptyBody then .ok ⟨[]⟩ else .error .std
  openOrdersAck body := if body = openOrdersBody then .ok ⟨[]⟩ else .error .std
  fromStringRelaxed _ := .error .std

/-- A download whose request for balances is answered with `body`. -/
def replies (body : String) : List Event :=
  [{ input := .connected },
    { input := .ack .token (.ok (.success, tokenBody)) 1 },
    { input := .ack .balance (.ok (.success, body)) 2 },
    { input := .ack .tradeBalance (.ok (.success, tradeBalanceBody)) 3 },
    { input := .ack .openPositions (.ok (.success, emptyBody)) 4 },
    { input := .ack .openOrders (.ok (.success, openOrdersBody)) 5 }]

/-- A download without errors. -/
theorem readyMeansDownloaded_empty_account :
    ∃ session log, (step sampleDecoders).run (create countingDownload 2 "A1")
        (replies emptyBody) = some (session, log) ∧
      ReadyMeansDownloaded sampleDecoders (create countingDownload 2 "A1") (replies emptyBody)
        log := by
  refine ⟨_, _, rfl, readyMeansDownloaded_run rfl (Step.along_of_mem ?_)⟩
  rintro event member session session' out - stage response sequence body input ⟨success, -⟩ -
  have empty : sampleDecoders.errors stage body = some [] := by
    simp only [replies, List.mem_cons, List.not_mem_nil, or_false] at member
    rcases member with rfl | rfl | rfl | rfl | rfl | rfl <;> cases input <;> cases success <;>
      decide
  simp [empty]

/-- A balance request that is answered with an error does not keep the session
from being ready. -/
theorem ready_without_balance :
    ¬ ∀ (core : Download2) (decoders : Decoders) (streamId : UInt16) (account : String)
      (events : List Event) (session' : OrderEntry core) (log : List (Event × List Effect)),
      (step decoders).run (create core streamId account) events = some (session', log) →
        ReadyMeansDownloaded decoders (create core streamId account) events log := by
  intro ordered
  cases ran : (step sampleDecoders).run (create countingDownload 2 "A1") (replies limitBody) with
  | none => cases ran
  | some result =>
    obtain ⟨session, log⟩ := result
    have ready : ((step sampleDecoders).run (create countingDownload 2 "A1")
        (replies limitBody)).map (fun result => result.2.getLast?.map
          fun entry => publishesReady entry.2) = some (some true) := by
      decide +kernel
    rw [ran, Option.map_some, Option.some.injEq, Option.map_eq_some_iff] at ready
    obtain ⟨last, isLast, ready⟩ := ready
    obtain ⟨past, split⟩ : ∃ past, log = past ++ [last] := List.getLast?_eq_some_iff.mp isLast
    have since := (ordered _ _ _ _ _ _ _ ran).1 past last [] split ready .balance (by decide)
    obtain ⟨entry, member, sequence, body, input, found⟩ := since.exists_mem
    have listed : entry.1 ∈ replies limitBody := by
      rw [← Step.map_fst_log ran, split]
      exact List.mem_map_of_mem member
    simp only [replies, List.mem_cons, List.not_mem_nil, or_false] at listed
    rcases listed with same | same | same | same | same | same <;> rw [same] at input <;>
      cases input
    revert found
    decide

end OrderEntry

end RoqKraken.Gateway
