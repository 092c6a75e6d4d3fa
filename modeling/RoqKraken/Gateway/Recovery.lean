import RoqKraken.Attainable
import RoqKraken.Gateway.Answers
import RoqKraken.Gateway.Connections
import RoqKraken.Gateway.Stopping

/-!
# Recovery

A gateway is not restarted when a connection fails: the network brings the connection
back, and the session takes up its work.  `recovers_run`: whatever has happened, from
every reachable state connections that come back and an exchange that answers bring all
streams to `ready`, the private sessions of all accounts included.  There is no state in
which a session waits for something that cannot come any more.
-/

namespace RoqKraken.Gateway

namespace System

variable {core : Symbols} {download : OrderEntry.Download2} {decoders : OrderEntry.Decoders}
  {server : Server} {settings : Settings} {config : Config} {system system' : System core download}
  {account : String} {event : Event} {events : List Event} {out : List Emitted}
  {log : List (Event × List Emitted)}

/-! ## Streams in service -/

/-- The connection status of the stream of a connection, if there is one. -/
def status (system : System core download) : Connection → Option ConnectionStatus
  | .marketData index =>
    system.controller.marketData[index]?.map MarketData.connectionStatus
  | .orderEntry account =>
    (system.orderEntry.lookup account).map OrderEntry.connectionStatus
  | .dropCopy account =>
    (system.controller.dropCopy.lookup account).join.map DropCopy.connectionStatus

/-- The stream is there and ready. -/
def Serves (connection : Connection) (system : System core download) : Prop :=
  system.status connection = some .ready

/-- All streams are ready, and every account has its private session. -/
structure InService (config : Config) (system : System core download) : Prop where
  orderEntry : ∀ account ∈ config.accounts, system.Serves (.orderEntry account)
  dropCopy : ∀ account ∈ config.accounts, system.Serves (.dropCopy account)
  marketData : ∀ index < system.controller.marketData.length, system.Serves (.marketData index)

/-- What connections that come back and an exchange that answers bring about; nothing
raises then. -/
inductive Recovers (decoders : OrderEntry.Decoders) : Event → Prop
  | marketData {index : Nat} {event : MarketData.Event} {external : _}
    (back : event ∈ [.disconnected, .ready, .message .status]) :
    Recovers decoders (.controller (.marketData index event) external)
  | dropCopy {account : String} {event : DropCopy.Event} {external : _}
    (back : event = .disconnected ∨ event = .ready ∨ ∃ oms, event = .message .status oms) :
    Recovers decoders (.controller (.dropCopy account event) external)
  | orderEntry {account : String} {input : OrderEntry.Input}
    (back : input = .disconnected ∨ input = .connected) :
    Recovers decoders (.orderEntry account { input })
  | answered {account : String} {stage : OrderEntry.State} {body : String} {sequence : UInt32}
    (answers : OrderEntry.Answers decoders stage body) :
    Recovers decoders (.orderEntry account { input := .ack stage (.ok (.success, body)) sequence })

/-! ## What one connection leaves alone -/

/-- The private session of the account exists. -/
def Present (account : String) (system : System core download) : Prop :=
  ∃ session, system.controller.dropCopy.lookup account = some (some session)

/-- What happens to one connection takes nothing from the streams of the others. -/
structure Spares (own : Connection) (before after : System core download) : Prop where
  serves : ∀ other, other ≠ own → before.Serves other → after.Serves other
  present : ∀ account, before.Present account → after.Present account
  length : after.controller.marketData.length = before.controller.marketData.length

theorem Spares.refl (own : Connection) (system : System core download) :
    Spares own system system :=
  ⟨fun _ _ serves => serves, fun _ present => present, rfl⟩

theorem Spares.trans {own : Connection} {before middle after : System core download}
    (first : Spares own before middle) (second : Spares own middle after) :
    Spares own before after where
  serves other ne serves := second.serves other ne (first.serves other ne serves)
  present account present := second.present account (first.present account present)
  length := second.length.trans first.length

/-- A token update leaves the streams as they are, and its account with a private
session. -/
theorem onTokenUpdate_spares {controller controller' : Controller core} {token : String}
    (updated : controller.onTokenUpdate account token = some controller') :
    controller'.marketData = controller.marketData ∧
      (∀ name session, controller.dropCopy.lookup name = some (some session) →
        controller'.dropCopy.lookup name = some (some session)) ∧
      ∃ session, controller'.dropCopy.lookup account = some (some session) := by
  unfold Controller.onTokenUpdate at updated
  split at updated
  · cases updated
  · next session found =>
    cases updated
    exact ⟨rfl, fun _ _ found => found, session, found⟩
  · next vacant =>
    cases updated
    refine ⟨rfl, fun name session found => ?_, ?_⟩
    · have other : name ≠ account := by
        rintro rfl
        cases found.symm.trans vacant
      rwa [Controller.lookup_assign, if_neg other]
    · rw [Controller.lookup_assign, if_pos rfl, vacant]
      exact ⟨_, rfl⟩

/-- So do the calls of a REST session. -/
theorem handTokens_spares {raises : Nat → Option OrderEntry.Exception}
    {calls : List (OrderEntry.Effect × Nat)} {controller controller' : Controller core}
    (done : handTokens raises controller calls = some controller') :
    controller'.marketData = controller.marketData ∧
      ∀ name session, controller.dropCopy.lookup name = some (some session) →
        controller'.dropCopy.lookup name = some (some session) := by
  induction calls generalizing controller with
  | nil =>
    cases done
    exact ⟨rfl, fun _ _ found => found⟩
  | cons call calls ih =>
    simp only [handTokens, List.foldlM_cons, Option.bind_eq_bind, Option.bind_eq_some_iff] at done
    obtain ⟨next, first, rest⟩ := done
    obtain ⟨same, kept⟩ := ih rest
    suffices here : next.marketData = controller.marketData ∧
        ∀ name session, controller.dropCopy.lookup name = some (some session) →
          next.dropCopy.lookup name = some (some session) from
      ⟨same.trans here.1, fun name session found => kept _ _ (here.2 name session found)⟩
    obtain ⟨effect, index⟩ := call
    cases effect with
    | tokenUpdate holder token =>
      simp only [handToken] at first
      cases raised : raises index with
      | some exception =>
        rw [raised] at first
        rcases Controller.onTokenUpdateRaised_cases first with rfl | rfl <;>
          exact ⟨rfl, fun _ _ found => found⟩
      | none =>
        rw [raised] at first
        obtain ⟨streams, sessions, -⟩ := onTokenUpdate_spares first
        exact ⟨streams, sessions⟩
    | _ =>
      cases first
      exact ⟨rfl, fun _ _ found => found⟩

/-- A token that is handed over without an exception leaves its account with a private
session. -/
theorem handTokens_creates {calls : List (OrderEntry.Effect × Nat)}
    {controller controller' : Controller core}
    (done : handTokens (fun _ => none) controller calls = some controller') {token : String}
    {index : Nat} (member : (.tokenUpdate account token, index) ∈ calls) :
    ∃ session, controller'.dropCopy.lookup account = some (some session) := by
  induction calls generalizing controller with
  | nil => cases member
  | cons call calls ih =>
    simp only [handTokens, List.foldlM_cons, Option.bind_eq_bind, Option.bind_eq_some_iff] at done
    obtain ⟨next, first, rest⟩ := done
    rcases List.mem_cons.mp member with rfl | later
    · obtain ⟨-, -, session, created⟩ := onTokenUpdate_spares first
      exact ⟨session, (handTokens_spares rest).2 account session created⟩
    · exact ih rest later

/-! ## REST sessions -/

section OrderEntry

/-- The gateway has come here. -/
def Reachable (decoders : OrderEntry.Decoders) (server : Server) (settings : Settings)
    (config : Config) (system : System core download) : Prop :=
  ∃ events log, (step decoders server settings).run (create core download config) events =
    some (system, log)

theorem reachable_step (reachable : Reachable decoders server settings config system)
    (stepped : step decoders server settings system event = some (system', out)) :
    Reachable decoders server settings config system' := by
  obtain ⟨events, log, ran⟩ := reachable
  have last : (step decoders server settings).run system [event] = some (system', [(event, out)]) :=
    Step.run_cons.mpr ⟨system', out, [], stepped, rfl, rfl⟩
  exact ⟨_, _, Step.run_append ran last⟩

/-- A turn of a REST session in which nothing raises. -/
theorem exists_turn (reachable : Reachable decoders server settings config system)
    {session next : OrderEntry download} (found : system.orderEntry.lookup account = some session)
    {input : OrderEntry.Input} {effects : List OrderEntry.Effect}
    (turn : OrderEntry.step decoders session { input } = some (next, effects)) :
    ∃ system' out,
      step decoders server settings system (.orderEntry account { input }) =
        some (system', out) ∧
      system'.orderEntry.lookup account = some next ∧
      Spares (.orderEntry account) system system' ∧
      ∀ token, .tokenUpdate account token ∈ effects → system'.Present account := by
  obtain ⟨events, log, ran⟩ := reachable
  obtain ⟨⟨system', out⟩, stepped⟩ := exists_step_orderEntry ran found { input }
  obtain ⟨session', next', effects', controller, found', turn', handed, rfl, -⟩ :=
    step_orderEntry stepped
  cases found.symm.trans found'
  cases turn.symm.trans turn'
  obtain ⟨streams, sessions⟩ := handTokens_spares handed
  refine ⟨_, out, stepped, ?_, ⟨?_, ?_, congrArg List.length streams⟩, ?_⟩
  · rw [lookup_replace, if_pos rfl, found]
    rfl
  · intro other ne serves
    cases other with
    | marketData index => rwa [Serves, status, streams]
    | orderEntry name =>
      have differs : name ≠ account := fun same => ne (same ▸ rfl)
      rwa [Serves, status, lookup_replace, if_neg differs]
    | dropCopy name =>
      obtain ⟨session, exists_, ready⟩ := Option.map_eq_some_iff.mp serves
      rw [Serves, status, sessions name session (Option.join_eq_some_iff.mp exists_)]
      exact congrArg some ready
  · rintro name ⟨session, present⟩
    exact ⟨session, sessions name session present⟩
  · intro token member
    obtain ⟨position, bound, here⟩ := List.mem_iff_getElem.mp member
    refine @handTokens_creates core account _ _ _ handed token position ?_
    rw [List.mem_zipIdx_iff_getElem?, List.getElem?_eq_getElem bound, here]

/-- A connection that is lost and comes back.  The session then waits for a response, the
one to the token request if it was not downloading before. -/
theorem attains_reconnected (responsive : OrderEntry.Responsive download)
    (reachable : Reachable decoders server settings config system)
    {session : OrderEntry download} (found : system.orderEntry.lookup account = some session) :
    (step decoders server settings).Attains (Recovers decoders) system fun system' =>
      Reachable decoders server settings config system' ∧
      Spares (.orderEntry account) system system' ∧
      ∃ next, system'.orderEntry.lookup account = some next ∧
        download.stage next.download ∈ OrderEntry.stages ∧
        (download.stage session.download ∉ OrderEntry.stages →
          download.stage next.download = .token) := by
  obtain ⟨lost, _, turn, same⟩ := OrderEntry.step_disconnected responsive decoders session
  obtain ⟨middle, _, stepped, found', spares, -⟩ := exists_turn reachable found turn
  have reachable' := reachable_step reachable stepped
  refine Step.attains_cons (.orderEntry (.inl rfl)) stepped ?_
  obtain ⟨next, _, turn', waits, first⟩ := OrderEntry.step_connected responsive decoders lost
  obtain ⟨last, _, stepped', found'', spares', -⟩ := exists_turn reachable' found' turn'
  refine Step.attains_cons (.orderEntry (.inr rfl)) stepped' (Step.attains_refl ?_)
  refine ⟨reachable_step reachable' stepped', spares.trans spares', next, found'', waits, ?_⟩
  exact fun idle => first (mt same.mp idle)

/-- The exchange answers the requests that are left. -/
theorem attains_downloaded (responsive : OrderEntry.Responsive download)
    (answers : ∀ stage ∈ OrderEntry.stages, ∃ body, OrderEntry.Answers decoders stage body)
    (reachable : Reachable decoders server settings config system)
    {session : OrderEntry download} (found : system.orderEntry.lookup account = some session)
    (waits : download.stage session.download ∈ OrderEntry.stages)
    {left : List OrderEntry.State} (remaining : session.left = some left) :
    (step decoders server settings).Attains (Recovers decoders) system fun system' =>
      Reachable decoders server settings config system' ∧
      Spares (.orderEntry account) system system' ∧
      system'.Serves (.orderEntry account) ∧
      (download.stage session.download = .token → system'.Present account) ∧
      ∃ next, system'.orderEntry.lookup account = some next ∧
        download.stage next.download ∉ OrderEntry.stages := by
  induction left generalizing system session with
  | nil =>
    obtain ⟨rest, some, -⟩ := OrderEntry.State.remaining_eq_cons waits
    cases some.symm.trans remaining
  | cons stage left ih =>
    obtain ⟨body, answer⟩ := answers _ waits
    obtain ⟨next, effects, turn, handed, moved⟩ :=
      OrderEntry.step_answered responsive waits answer
    obtain ⟨middle, out, stepped, found', spares, present⟩ := exists_turn reachable found turn
    have reachable' := reachable_step reachable stepped
    have named : session.account = account := by
      obtain ⟨events, log, ran⟩ := reachable
      exact (named_run ran).1 account session found
    have created : download.stage session.download = .token → middle.Present account := by
      intro first
      obtain ⟨token, member⟩ := handed first
      exact present token (named ▸ member)
    refine Step.attains_cons (.answered answer) stepped ?_
    rcases moved with ⟨ready, idle⟩ | ⟨waits', step⟩
    · refine Step.attains_refl ⟨reachable', spares, ?_, created, next, found', idle⟩
      rw [Serves, status, found', Option.map_some, ready]
    · obtain ⟨rest, here, after⟩ := OrderEntry.State.remaining_eq_cons waits
      have remaining' : next.left = some left := by
        rw [OrderEntry.left, step, after]
        cases here.symm.trans remaining
        rfl
      refine (ih reachable' found' waits' remaining').imp ?_
      rintro system' ⟨reachable'', spares', serves, -, idle⟩
      refine ⟨reachable'', spares.trans spares', serves, fun first => ?_, idle⟩
      exact spares'.present account (created first)

/-- The REST session of an account gets ready, and its private session is created. -/
theorem attains_orderEntry (responsive : OrderEntry.Responsive download)
    (answers : ∀ stage ∈ OrderEntry.stages, ∃ body, OrderEntry.Answers decoders stage body)
    (reachable : Reachable decoders server settings config system)
    (member : account ∈ config.accounts) :
    (step decoders server settings).Attains (Recovers decoders) system fun system' =>
      Reachable decoders server settings config system' ∧
      Spares (.orderEntry account) system system' ∧
      system'.Serves (.orderEntry account) ∧ system'.Present account := by
  obtain ⟨session, found⟩ : ∃ session, system.orderEntry.lookup account = some session := by
    obtain ⟨events, log, ran⟩ := reachable
    obtain ⟨streamId, drawn⟩ := lookup_orderEntry_of_mem core member
    obtain ⟨session, found, -⟩ := orderEntry_run ran drawn
    exact ⟨session, found⟩
  -- the download that is under way ends, so that the next one asks for a token
  refine (attains_reconnected responsive reachable found).trans ?_
  rintro first ⟨reachable, spares₁, session₁, found₁, waits₁, -⟩
  obtain ⟨left₁, remaining₁, -⟩ := OrderEntry.State.remaining_eq_cons waits₁
  refine (attains_downloaded responsive answers reachable found₁ waits₁ remaining₁).trans ?_
  rintro second ⟨reachable, spares₂, -, -, session₂, found₂, idle⟩
  refine (attains_reconnected responsive reachable found₂).trans ?_
  rintro third ⟨reachable, spares₃, session₃, found₃, waits₃, fresh⟩
  obtain ⟨left₃, remaining₃, -⟩ := OrderEntry.State.remaining_eq_cons waits₃
  refine (attains_downloaded responsive answers reachable found₃ waits₃ remaining₃).imp ?_
  rintro last ⟨reachable, spares₄, serves, present, -⟩
  exact ⟨reachable, ((spares₁.trans spares₂).trans spares₃).trans spares₄, serves,
    present (fresh idle)⟩

end OrderEntry

/-! ## Web socket sessions -/

section Sockets

theorem step_of_controller {received : Controller.Event} {external : received.External}
    {controller : Controller core} {outputs : List (Source × Output)}
    (stepped : Controller.step server settings system.controller received =
      some (controller, outputs)) :
    step decoders server settings system (.controller received external) =
      some ({ system with controller }, outputs.map fun entry => .stream entry.1 entry.2) := by
  simp [step, stepped]

/-- An event that a private session takes. -/
theorem exists_dropCopy {received : DropCopy.Event} {session next : DropCopy}
    {outputs : List Output}
    (found : system.controller.dropCopy.lookup account = some (some session))
    (handled : session.step server settings received = some (next, outputs)) :
    ∃ system' out, step decoders server settings system
        (.controller (.dropCopy account received) trivial) = some (system', out) ∧
      system'.controller.dropCopy.lookup account = some (some next) ∧
      Spares (.dropCopy account) system system' := by
  have stepped : Controller.step server settings system.controller (.dropCopy account received) =
      some ({ system.controller with
          dropCopy := Controller.assign account next system.controller.dropCopy },
        tag (.dropCopy account) outputs) := by
    simp [Controller.step, Controller.onDropCopy, found, handled]
  refine ⟨_, _, step_of_controller stepped, ?_, ?_, ?_, rfl⟩
  · rw [Controller.lookup_assign, if_pos rfl, found]
    rfl
  · intro other ne serves
    cases other with
    | marketData | orderEntry => exact serves
    | dropCopy name =>
      have differs : name ≠ account := fun same => ne (same ▸ rfl)
      rwa [Serves, status, Controller.lookup_assign, if_neg differs]
  · rintro name ⟨other, present⟩
    unfold Present
    rw [Controller.lookup_assign]
    split
    · exact ⟨next, by rw [present]; rfl⟩
    · exact ⟨other, present⟩

/-- A private session that is there gets ready. -/
theorem attains_dropCopy (reachable : Reachable decoders server settings config system)
    (present : system.Present account) :
    (step decoders server settings).Attains (Recovers decoders) system fun system' =>
      Reachable decoders server settings config system' ∧
      Spares (.dropCopy account) system system' ∧ system'.Serves (.dropCopy account) := by
  obtain ⟨session, found⟩ := present
  obtain ⟨first, _, stepped₁, found₁, spares₁⟩ := @exists_dropCopy _ _ decoders server settings
    _ account .disconnected session _ _ found rfl
  obtain ⟨second, _, stepped₂, found₂, spares₂⟩ := @exists_dropCopy _ _ decoders server settings
    _ account .ready _ _ _ found₁ rfl
  obtain ⟨third, _, stepped₃, found₃, spares₃⟩ := @exists_dropCopy _ _ decoders server settings
    _ account (.message .status fun _ => none) _ _ _ found₂ rfl
  refine Step.attains_cons (.dropCopy (.inl rfl)) stepped₁ ?_
  refine Step.attains_cons (.dropCopy (.inr (.inl rfl))) stepped₂ ?_
  refine Step.attains_cons (.dropCopy (.inr (.inr ⟨_, rfl⟩))) stepped₃ (Step.attains_refl ?_)
  refine ⟨?_, (spares₁.trans spares₂).trans spares₃, ?_⟩
  · exact reachable_step (reachable_step (reachable_step reachable stepped₁) stepped₂) stepped₃
  · rw [Serves, status, found₃]
    rfl

/-- An event that a public stream takes, and that announces no symbols. -/
theorem exists_marketData {index : Nat} {received : MarketData.Event} {session : MarketData}
    {result : MarketData.Result core} (found : system.controller.marketData[index]? = some session)
    (handled : session.onEvent server settings system.controller.shared received = some result)
    (quiet : result.newSymbols = []) :
    ∃ system' out, step decoders server settings system
        (.controller (.marketData index received) trivial) = some (system', out) ∧
      system'.controller.marketData[index]? = some result.session ∧
      Spares (.marketData index) system system' := by
  have stepped : Controller.step server settings system.controller (.marketData index received) =
      some ({ system.controller with
          shared := result.shared
          marketData := system.controller.marketData.set index result.session },
        tag (.marketData session.index) result.outputs) := by
    simp [Controller.step, Controller.onMarketData, found, handled, quiet]
  obtain ⟨bound, -⟩ := List.getElem?_eq_some_iff.mp found
  refine ⟨_, _, step_of_controller stepped, ?_, ?_, ?_, ?_⟩
  · exact List.getElem?_set_self bound
  · intro other ne serves
    cases other with
    | marketData position =>
      have differs : index ≠ position := fun same => ne (same ▸ rfl)
      rwa [Serves, status, List.getElem?_set_ne differs]
    | orderEntry | dropCopy => exact serves
  · exact fun name present => present
  · exact List.length_set

/-- A public stream gets ready. -/
theorem attains_marketData (reachable : Reachable decoders server settings config system)
    {index : Nat} (bound : index < system.controller.marketData.length) :
    (step decoders server settings).Attains (Recovers decoders) system fun system' =>
      Reachable decoders server settings config system' ∧
      Spares (.marketData index) system system' ∧ system'.Serves (.marketData index) := by
  have found := List.getElem?_eq_getElem bound
  obtain ⟨first, _, stepped₁, found₁, spares₁⟩ := @exists_marketData _ _ decoders server settings
    system index .disconnected _ _ found rfl rfl
  obtain ⟨second, _, stepped₂, found₂, spares₂⟩ := @exists_marketData _ _ decoders server settings
    first index .ready _ _ found₁ rfl rfl
  obtain ⟨third, _, stepped₃, found₃, spares₃⟩ := @exists_marketData _ _ decoders server settings
    second index (.message .status) _ _ found₂ rfl rfl
  refine Step.attains_cons (.marketData (by decide)) stepped₁ ?_
  refine Step.attains_cons (.marketData (by decide)) stepped₂ ?_
  refine Step.attains_cons (.marketData (by decide)) stepped₃ (Step.attains_refl ?_)
  refine ⟨?_, (spares₁.trans spares₂).trans spares₃, ?_⟩
  · exact reachable_step (reachable_step (reachable_step reachable stepped₁) stepped₂) stepped₃
  · rw [Serves, status, found₃]
    rfl

end Sockets

/-! ## The gateway -/

/-- The REST sessions get ready one after the other. -/
theorem attains_accounts (responsive : OrderEntry.Responsive download)
    (answers : ∀ stage ∈ OrderEntry.stages, ∃ body, OrderEntry.Answers decoders stage body)
    (reachable : Reachable decoders server settings config system) :
    (step decoders server settings).Attains (Recovers decoders) system fun system' =>
      Reachable decoders server settings config system' ∧
      ∀ account ∈ config.accounts,
        system'.Serves (.orderEntry account) ∧ system'.Present account := by
  refine (@Step.attains_all _ _ _ _ _ _ _ String config.accounts (fun account system =>
    system.Serves (.orderEntry account) ∧ system.Present account) ?_ reachable).imp ?_
  · intro account member system reachable
    refine (attains_orderEntry responsive answers reachable member).imp ?_
    rintro system' ⟨reachable', spares, serves, present⟩
    refine ⟨reachable', ⟨serves, present⟩, fun other ⟨ready, there⟩ => ?_⟩
    refine ⟨?_, spares.present other there⟩
    by_cases same : other = account
    · exact same ▸ serves
    · exact spares.serves _ (fun equal => same (Connection.orderEntry.inj equal)) ready
  · exact fun system' ⟨reachable', all, _⟩ => ⟨reachable', all⟩

/-- Then the private sessions do. -/
theorem attains_privateSessions (reachable : Reachable decoders server settings config system)
    (signedIn : ∀ account ∈ config.accounts,
      system.Serves (.orderEntry account) ∧ system.Present account) :
    (step decoders server settings).Attains (Recovers decoders) system fun system' =>
      Reachable decoders server settings config system' ∧
      (∀ account ∈ config.accounts, system'.Serves (.orderEntry account)) ∧
      ∀ account ∈ config.accounts, system'.Serves (.dropCopy account) := by
  refine (@Step.attains_all _ _ _ _ _ (fun system =>
    Reachable decoders server settings config system ∧ ∀ account ∈ config.accounts,
      system.Serves (.orderEntry account) ∧ system.Present account) _ String config.accounts
    (fun account system => system.Serves (.dropCopy account)) ?_ ⟨reachable, signedIn⟩).imp ?_
  · rintro account member system ⟨reachable, signedIn⟩
    refine (attains_dropCopy reachable (signedIn account member).2).imp ?_
    rintro system' ⟨reachable', spares, serves⟩
    refine ⟨⟨reachable', fun name listed => ?_⟩, serves, fun other ready => ?_⟩
    · obtain ⟨ready, there⟩ := signedIn name listed
      exact ⟨spares.serves _ nofun ready, spares.present name there⟩
    · by_cases same : other = account
      · exact same ▸ serves
      · exact spares.serves _ (fun equal => same (Connection.dropCopy.inj equal)) ready
  · rintro system' ⟨⟨reachable', signedIn'⟩, all, -⟩
    exact ⟨reachable', fun account member => (signedIn' account member).1, all⟩

/-- And at last the public streams. -/
theorem attains_publicStreams (reachable : Reachable decoders server settings config system)
    (orderEntry : ∀ account ∈ config.accounts, system.Serves (.orderEntry account))
    (dropCopy : ∀ account ∈ config.accounts, system.Serves (.dropCopy account)) :
    (step decoders server settings).Attains (Recovers decoders) system (InService config) := by
  refine (@Step.attains_all _ _ _ _ _ (fun later =>
    Reachable decoders server settings config later ∧
      later.controller.marketData.length = system.controller.marketData.length ∧
      ∀ account ∈ config.accounts,
        later.Serves (.orderEntry account) ∧ later.Serves (.dropCopy account)) _ Nat
    (List.range system.controller.marketData.length)
    (fun index later => later.Serves (.marketData index)) ?_
    ⟨reachable, rfl, fun account member =>
      ⟨orderEntry account member, dropCopy account member⟩⟩).imp ?_
  · rintro index member later ⟨reachable, length, accounts⟩
    have bound : index < later.controller.marketData.length := length ▸ List.mem_range.mp member
    refine (attains_marketData reachable bound).imp ?_
    rintro last ⟨reachable', spares, serves⟩
    refine ⟨⟨reachable', spares.length.trans length, fun account listed => ?_⟩, serves, ?_⟩
    · obtain ⟨rest, own⟩ := accounts account listed
      exact ⟨spares.serves _ nofun rest, spares.serves _ nofun own⟩
    · intro other ready
      by_cases same : other = index
      · exact same ▸ serves
      · exact spares.serves _ (fun equal => same (Connection.marketData.inj equal)) ready
  · rintro later ⟨⟨-, length, accounts⟩, all, -⟩
    refine ⟨fun account member => (accounts account member).1,
      fun account member => (accounts account member).2, fun index bound => ?_⟩
    exact all index (List.mem_range.mpr (length ▸ bound))

/-- **Recovery.**  From every state that a gateway can come to, connections that are lost and
come back, and an exchange that answers its requests, bring all streams to `ready`: the REST
and the private sessions of all accounts, and all public streams. -/
theorem recovers_run (responsive : OrderEntry.Responsive download)
    (answers : ∀ stage ∈ OrderEntry.stages, ∃ body, OrderEntry.Answers decoders stage body)
    (ran : (step decoders server settings).run (create core download config) events =
      some (system, log)) :
    (step decoders server settings).Attains (Recovers decoders) system (InService config) := by
  refine (attains_accounts responsive answers ⟨events, log, ran⟩).trans ?_
  rintro first ⟨reachable, signedIn⟩
  refine (attains_privateSessions reachable signedIn).trans ?_
  rintro second ⟨reachable, orderEntry, dropCopy⟩
  exact attains_publicStreams reachable orderEntry dropCopy

/-- The counting download goes on. -/
theorem responsive_countingDownload : OrderEntry.Responsive OrderEntry.countingDownload where
  downloading_iff _ := decide_eq_true_iff
  current _ _ := by simp [OrderEntry.countingDownload]
  settle_waiting _ _ _ := rfl

theorem answers_sampleDecoders : ∀ stage ∈ OrderEntry.stages,
    ∃ body, OrderEntry.Answers OrderEntry.sampleDecoders stage body := by
  intro stage member
  cases stage with
  | undefined | done => simp [OrderEntry.stages] at member
  | token => exact ⟨OrderEntry.tokenBody, 1, rfl⟩
  | balance => exact ⟨OrderEntry.emptyBody, 0, rfl⟩
  | tradeBalance => exact ⟨"", 0, rfl⟩
  | openPositions => exact ⟨OrderEntry.emptyBody, 0, rfl⟩
  | openOrders => exact ⟨OrderEntry.openOrdersBody, 0, rfl⟩

/-- The private session of an account cannot be created, and both its connection and the
public one are lost. -/
def badStart : List Event :=
  [.orderEntry "A1" { input := .connected },
    .orderEntry "A1"
      { input := .ack .token (.ok (.success, OrderEntry.tokenBody)) 1
        raises := fun position => if position = 0 then some .std else none },
    .orderEntry "A1" { input := .disconnected },
    .controller (.marketData 0 .disconnected) trivial]

theorem recovers_run_badStart :
    ∃ (system : System (Symbols.chunked 128 (by decide)) OrderEntry.countingDownload)
      (log : List (Event × List Emitted)),
      (step OrderEntry.sampleDecoders ⟨255, fun _ => false⟩ {}).run (create _ _ ⟨["A1"], by decide⟩)
        badStart = some (system, log) ∧
      (step OrderEntry.sampleDecoders ⟨255, fun _ => false⟩ {}).Attains
        (Recovers OrderEntry.sampleDecoders) system (InService ⟨["A1"], by decide⟩) := by
  refine ⟨_, _, rfl, ?_⟩
  exact @recovers_run (Symbols.chunked 128 (by decide)) OrderEntry.countingDownload
    OrderEntry.sampleDecoders ⟨255, fun _ => false⟩ {} ⟨["A1"], by decide⟩ _ badStart _
    responsive_countingDownload answers_sampleDecoders rfl

end System

end RoqKraken.Gateway
