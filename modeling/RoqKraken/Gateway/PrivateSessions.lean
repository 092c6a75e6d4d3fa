import RoqKraken.Gateway.Controller

/-!
# Private sessions over a run of the gateway

The table of private sessions starts out null and an entry is filled by the
first `TokenUpdate` of its account, for good.  `sessions_run` says so for every
reachable controller; where order requests end up and which token a frame
carries are read off it.
-/

namespace RoqKraken.Gateway.Controller

variable {core : Symbols} {server : Server} {settings : Settings} {config : Config}
  {controller controller' : Controller core} {event : Event} {events : List Event}
  {out : List (Source × Output)} {log : List (Event × List (Source × Output))}

/-! ## The table of sessions -/

/-- The token an event hands over for an account. -/
def Event.tokenFor (account : String) : Event → Option String
  | .tokenUpdate name token => if name = account then some token else none
  | _ => none

/-- The token of the first `TokenUpdate` of an account. -/
def firstToken (account : String) (events : List Event) : Option String :=
  events.findSome? (Event.tokenFor account)

/-- The token of the most recent `TokenUpdate` of an account. -/
def newestToken (account : String) (events : List Event) : Option String :=
  events.reverse.findSome? (Event.tokenFor account)

/-- The entry of an account: whether there is one, and whose session with which
token it holds, if any. -/
def entry (controller : Controller core) (account : String) :
    Option (Option (String × String)) :=
  (controller.dropCopy.lookup account).map (Option.map fun session =>
    (session.account, session.token))

@[simp] theorem lookup_createDropCopy (accounts : List String) (account : String) :
    (createDropCopy accounts).lookup account =
      if account ∈ accounts then some none else none := by
  induction accounts with
  | nil => rfl
  | cons name accounts ih =>
    simp only [createDropCopy, List.map_cons] at ih ⊢
    by_cases here : account = name
    · simp [here]
    · simp [List.lookup_cons, beq_false_of_ne here, ih, here]

theorem entry_congr (same : controller'.dropCopy = controller.dropCopy) (account : String) :
    controller'.entry account = controller.entry account := by
  rw [entry, same, entry]

theorem entry_create (account : String) : (create core config).entry account =
    if account ∈ config.accounts then some none else none := by
  simp only [entry, create, lookup_createDropCopy]
  split <;> rfl

@[simp] theorem dropCopy_onSymbolsUpdate (symbols : List String) :
    (controller.onSymbolsUpdate symbols).1.dropCopy = controller.dropCopy :=
  @SliceLoop.invariant _ _ _ _ (fun state => state.dropCopy = controller.dropCopy)
    (sliceLoop_ensureSymbolSlices _ _) (fun _ same => same) rfl

theorem dropCopy_marketData {index : Nat} {received : MarketData.Event}
    (stepped : step server settings controller (.marketData index received) =
      some (controller', out)) :
    controller'.dropCopy = controller.dropCopy := by
  obtain ⟨session, result, -, -, ⟨-, rfl, -⟩ | ⟨rfl, -⟩⟩ := step_marketData stepped
  · rfl
  · exact dropCopy_onSymbolsUpdate _

/-- A token update fills the null entry of its account and changes no other. -/
theorem entry_onTokenUpdate {name token : String}
    (stepped : controller.onTokenUpdate name token = some controller') (account : String) :
    controller'.entry account = (controller.entry account).map fun session =>
      session <|> ((Event.tokenUpdate name token).tokenFor account).map (account, ·) := by
  unfold onTokenUpdate at stepped
  split at stepped
  · cases stepped
  · next session found =>
    cases stepped
    by_cases same : name = account
    · subst same
      simp [entry, found]
    · simp [Event.tokenFor, same]
  · next found =>
    cases stepped
    by_cases same : name = account
    · subst same
      simp [entry, lookup_assign, found, Event.tokenFor]
    · have other : ∀ session, ({ controller with
          streamId := controller.streamId + 1
          dropCopy := assign name session controller.dropCopy } : Controller core).entry account =
          controller.entry account := by
        intro session
        simp [entry, lookup_assign, Ne.symm same]
      simp [other, Event.tokenFor, same]

/-- An event of a private session leaves every entry as it is. -/
theorem entry_dropCopy {name : String} {received : DropCopy.Event}
    (stepped : step server settings controller (.dropCopy name received) =
      some (controller', out))
    (account : String) : controller'.entry account = controller.entry account := by
  obtain ⟨session, next, outputs, found, first, rfl, -⟩ := step_dropCopy stepped
  obtain ⟨-, sameAccount, sameToken⟩ := DropCopy.step_constant first
  by_cases same : account = name
  · subst same
    simp [entry, lookup_assign, found, sameAccount, sameToken]
  · simp [entry, lookup_assign, same]

/-- What one event does to the entry of an account. -/
theorem entry_step (stepped : step server settings controller event = some (controller', out))
    (account : String) : controller'.entry account =
      (controller.entry account).map fun session =>
        session <|> (event.tokenFor account).map (account, ·) := by
  have keep : event.tokenFor account = none →
      controller'.entry account = controller.entry account →
      controller'.entry account = (controller.entry account).map fun session =>
        session <|> (event.tokenFor account).map (account, ·) := by
    intro none same
    simp [none, same]
  cases event with
  | tokenUpdate name token => exact entry_onTokenUpdate (step_tokenUpdate stepped).1 account
  | dropCopy name received => exact keep rfl (entry_dropCopy stepped account)
  | marketData index received =>
    exact keep rfl (entry_congr (dropCopy_marketData stepped) account)
  | subscribe symbols =>
    cases stepped
    exact keep rfl (entry_congr (dropCopy_onSymbolsUpdate _) account)
  | symbolsUpdate symbols =>
    cases stepped
    exact keep rfl (entry_congr (dropCopy_onSymbolsUpdate symbols) account)
  | start | stop | timer now =>
    cases stepped
    exact keep rfl (entry_congr rfl account)
  | request request =>
    obtain ⟨rfl, -⟩ := step_request stepped
    exact keep rfl rfl

/-- **Sessions of a run.**  An account has an entry exactly when it is
configured, and a session exactly when a token of it was handled: its own one,
with the first token. -/
theorem sessions_run
    (ran : (step server settings).run (create core config) events = some (controller, log))
    (account : String) : controller.entry account =
      if account ∈ config.accounts then some ((firstToken account events).map (account, ·))
      else none := by
  have general : ∀ {start : Controller core},
      (step server settings).run start events = some (controller, log) →
        controller.entry account = (start.entry account).map fun session =>
          session <|> (firstToken account events).map (account, ·) := by
    clear ran
    induction events generalizing log with
    | nil =>
      intro start ran
      obtain ⟨rfl, -⟩ := Step.run_nil.mp ran
      simp [firstToken]
    | cons event events ih =>
      intro start ran
      obtain ⟨next, out, rest, first, tail, -⟩ := Step.run_cons.mp ran
      rw [ih tail, entry_step first, Option.map_map]
      refine congrArg (fun f => Option.map f (start.entry account)) (funext fun session => ?_)
      cases session with
      | some session => simp
      | none => cases handed : event.tokenFor account <;> simp [firstToken, handed]
  rw [general ran, entry_create]
  split <;> simp

/-! ## Where order requests end up -/

/-- The session of exactly the account the request names takes it, and its own
answer is returned; or an exception is raised. -/
def RoutedSafely (settings : Settings) (controller : Controller core)
    (request : DropCopy.Request) : Prop :=
  match controller.onRequest settings request with
  | .handled session streamId outputs =>
    settings.wsApi = true ∧ controller.dropCopy.lookup request.account = some (some session) ∧
      session.account = request.account ∧ (streamId, outputs) = session.onRequest request
  | .raised _ => True
  | .nullDereference => False

/-- **Order routing.**  In a reachable gateway a request is routed safely unless
the private session of a configured account is used before its first token. -/
theorem routedSafely_iff
    (ran : (step server settings).run (create core config) events = some (controller, log))
    (request : DropCopy.Request) :
    RoutedSafely settings controller request ↔
      ¬ (settings.wsApi = true ∧ request.account ∈ config.accounts ∧
        firstToken request.account events = none) := by
  have known := sessions_run ran request.account
  cases mode : settings.wsApi with
  | false =>
    have raised : ∃ error, controller.onRequest settings request = .raised error := by
      simp only [onRequest, mode, Bool.false_eq_true, if_false]
      split <;> exact ⟨_, rfl⟩
    obtain ⟨error, raised⟩ := raised
    simp [RoutedSafely, raised]
  | true =>
    simp only [RoutedSafely, onRequest, mode, if_true, getDropCopy, true_and]
    cases found : controller.dropCopy.lookup request.account with
    | none =>
      have unknown : request.account ∉ config.accounts := by
        intro member
        simp [entry, found, member] at known
      simp [unknown]
    | some session =>
      have member : request.account ∈ config.accounts := by
        by_contra unknown
        simp [entry, found, unknown] at known
      rw [entry, found, if_pos member, Option.map_some, Option.some_inj] at known
      cases session with
      | none => simpa [member, eq_comm] using known
      | some session =>
        obtain ⟨token, first, same⟩ := Option.map_eq_some_iff.mp known.symm
        have account : session.account = request.account := (congrArg Prod.fst same).symm
        simp [first, account]

/-- A request for an account whose token has arrived. -/
theorem routedSafely_iff_after_token :
    ∃ controller log,
      (step ⟨255, fun _ => false⟩ {}).run
        (create (Symbols.chunked 128 (by decide)) ⟨["A1"], by decide⟩)
        [.tokenUpdate "A1" "T1"] = some (controller, log) ∧
      (RoutedSafely {} controller (.cancelAllOrders ⟨"A1"⟩) ↔
        ¬ (({} : Settings).wsApi = true ∧ "A1" ∈ ["A1"] ∧
          firstToken "A1" [.tokenUpdate "A1" "T1"] = none)) := by
  refine ⟨_, _, rfl, ?_⟩
  exact @routedSafely_iff _ ⟨255, fun _ => false⟩ {} ⟨["A1"], by decide⟩ _
    [.tokenUpdate "A1" "T1"] _ rfl (.cancelAllOrders ⟨"A1"⟩)

/-- A request that arrives before the first token uses the null entry. -/
theorem request_before_token_unsafe :
    ¬ ∀ (core : Symbols) (server : Server) (settings : Settings) (config : Config)
      (events : List Event) (controller : Controller core)
      (log : List (Event × List (Source × Output))) (request : DropCopy.Request),
      (step server settings).run (create core config) events = some (controller, log) →
        RoutedSafely settings controller request := by
  intro safe
  exact safe (Symbols.chunked 128 (by decide)) ⟨255, fun _ => false⟩ {} ⟨["A1"], by decide⟩
    [.start] _ _ (.cancelAllOrders ⟨"A1"⟩) rfl

/-! ## Which token a frame carries -/

/-- A frame of a private session carries the token of the session of that
account. -/
theorem step_sent_token {account : String} {frame : Frame}
    (stepped : step server settings controller event = some (controller', out))
    (sent : (.dropCopy account, .send frame) ∈ out) :
    ∃ name session, controller.dropCopy.lookup name = some (some session) ∧
      (account = name ∨ account = session.account) ∧ frame.token? = some session.token := by
  cases event with
  | dropCopy name received =>
    obtain ⟨session, next, outputs, found, first, -, rfl⟩ := step_dropCopy stepped
    obtain ⟨same, member⟩ := mem_tag.mp sent
    cases same
    exact ⟨account, session, found, .inl rfl,
      DropCopy.step_frames_token first (mem_frames.mpr member)⟩
  | request request =>
    obtain ⟨-, rfl | ⟨session, found, rfl⟩⟩ := step_request stepped
    · cases sent
    · obtain ⟨same, member⟩ := mem_tag.mp sent
      cases same
      cases List.mem_singleton.mp member
      exact ⟨request.account, session, found, .inr rfl,
        DropCopy.Request.frame_token session.token request⟩
  | marketData index received =>
    obtain ⟨session, result, -, -, ⟨-, -, rfl⟩ | ⟨-, rfl⟩⟩ := step_marketData stepped <;>
      simp [onSymbolsUpdate] at sent
  | tokenUpdate name token =>
    obtain ⟨-, rfl⟩ := step_tokenUpdate stepped
    cases sent
  | subscribe symbols | symbolsUpdate symbols =>
    cases stepped
    simp at sent
  | timer now =>
    cases stepped
    simp at sent
  | start | stop =>
    cases stepped
    cases sent

/-- **Tokens of a run.**  Every frame of a private session carries the token of
the first `TokenUpdate` of its own account. -/
theorem frames_carry_first_token
    (ran : (step server settings).run (create core config) events = some (controller, log))
    {past later : List (Event × List (Source × Output))} (cut : log = past ++ (event, out) :: later)
    {account : String} {frame : Frame} (sent : (.dropCopy account, .send frame) ∈ out) :
    ∃ token, firstToken account (past.map Prod.fst) = some token ∧ frame.token? = some token := by
  obtain ⟨before, after, reached, stepped⟩ := Step.run_split (cut ▸ ran)
  obtain ⟨name, session, found, named, carried⟩ := step_sent_token stepped sent
  have known := sessions_run reached name
  rw [entry, found] at known
  split at known
  · have first := (Option.some_inj.mp known).symm
    simp only [Option.map_some, Option.map_eq_some_iff, Prod.mk.injEq] at first
    obtain ⟨token, first, own, rfl⟩ := first
    rw [← own, or_self] at named
    exact ⟨session.token, named ▸ first, carried⟩
  · cases known

theorem frames_carry_first_token_cancelAll :
    ∃ token, firstToken "A1" [.tokenUpdate "A1" "T1"] = some token ∧
      (Frame.cancelAll "T1").token? = some token :=
  @frames_carry_first_token (Symbols.chunked 128 (by decide)) ⟨255, fun _ => false⟩ {}
    ⟨["A1"], by decide⟩ _ (.request (.cancelAllOrders ⟨"A1"⟩))
    [.tokenUpdate "A1" "T1", .request (.cancelAllOrders ⟨"A1"⟩)] _ _ rfl
    [(.tokenUpdate "A1" "T1", [])] [] rfl "A1" (.cancelAll "T1") (by decide)

/-- A second token of the account does not reach its session. -/
theorem frame_carries_stale_token :
    ¬ ∀ (core : Symbols) (server : Server) (settings : Settings) (config : Config)
      (events : List Event) (controller : Controller core)
      (log past later : List (Event × List (Source × Output))) (event : Event)
      (out : List (Source × Output)) (account : String) (frame : Frame),
      (step server settings).run (create core config) events = some (controller, log) →
      log = past ++ (event, out) :: later → (.dropCopy account, .send frame) ∈ out →
        frame.token? = newestToken account (past.map Prod.fst) := by
  intro newest
  have stale := newest (Symbols.chunked 128 (by decide)) ⟨255, fun _ => false⟩ {}
    ⟨["A1"], by decide⟩
    [.tokenUpdate "A1" "T1", .tokenUpdate "A1" "T2", .request (.cancelAllOrders ⟨"A1"⟩)] _ _
    [(.tokenUpdate "A1" "T1", []), (.tokenUpdate "A1" "T2", [])] [] _ _ "A1" (.cancelAll "T1")
    rfl rfl (by decide)
  revert stale
  decide

end RoqKraken.Gateway.Controller
