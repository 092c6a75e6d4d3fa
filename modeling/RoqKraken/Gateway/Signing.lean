import RoqKraken.Gateway.Credentials
import RoqKraken.Gateway.Stopping

/-!
# The gateway with the nonces of its accounts

A REST session signs every request that it makes, and draws the nonce from the real-time
clock.  `create_body` ends the process where the clock is too far behind the nonce before.
`Signed` adds the accounts to the gateway: a turn of a REST session signs its requests one
after the other, and stops where one of them is not signed.

Its runs are those of `System` in which all signatures are made, `Signed.system_run`, and
`Signed.nonce_run` tells the nonces from what the clock has read.  With that `stops_iff` says
of a reachable gateway when the process ends.
-/

namespace RoqKraken.Gateway

open Tools

/-! ## Several signatures -/

namespace Account

variable {account account' : Account} {readings : List Int} {calls : List (String × Int)}
  {log : List ((String × Int) × HttpRequest)}

theorem sign_eq_none {path : String} {realtime : Int} :
    account.sign (path, realtime) = none ↔
      Crypto.toMilliseconds realtime - account.crypto.nonce < Crypto.threshold := by
  rw [← Crypto.createBody_eq_none, sign]
  cases account.crypto.createBody realtime <;> simp

/-- The nonce of the account is the one that signatures at these readings leave. -/
def Drawn (account : Account) (readings : List Int) : Prop :=
  account.crypto.nonce = Crypto.nonceAfter readings

theorem Drawn.sign_run (drawn : account.Drawn readings)
    (ran : sign.run account calls = some (account', log)) :
    account'.Drawn (readings ++ calls.map Prod.snd) ∧ account'.name = account.name := by
  have done := @Step.run_induction _ _ _ _ _ _ _ _
    (fun account' past => account'.Drawn (readings ++ past.map fun entry => entry.1.2) ∧
      account'.name = account.name) [] ran ?_ ⟨by simpa using drawn, rfl⟩
  · rwa [← Step.map_fst_log ran, List.map_map]
  · rintro signer past ⟨path, realtime⟩ signer' request - ⟨nonce, name⟩ signed
    obtain ⟨made, sameName, -⟩ := sign_eq_some signed
    obtain ⟨-, -, next, -⟩ := Crypto.createBody_eq_some.mp made
    refine ⟨?_, sameName.trans name⟩
    rw [Drawn, List.map_append, List.map_singleton, ← List.append_assoc,
      Crypto.nonceAfter_concat, next, nonce]

/-- Signing stops at the first request at which the clock is too far behind the nonce. -/
theorem Drawn.sign_run_eq_none_iff (drawn : account.Drawn readings) :
    sign.run account calls = none ↔ ∃ before call after, calls = before ++ call :: after ∧
      Crypto.Behind (readings ++ before.map Prod.snd) call.2 := by
  have stops : ∀ {before log signer call}, sign.run account before = some (signer, log) →
      (sign signer call = none ↔ Crypto.Behind (readings ++ before.map Prod.snd) call.2) := by
    intro before log signer call ran
    rw [sign_eq_none, Crypto.Behind, ← (drawn.sign_run ran).1]
  constructor
  · intro stopped
    obtain ⟨before, call, after, signer, log, split, ran, never⟩ :=
      Step.run_eq_none_iff.mp stopped
    exact ⟨before, call, after, split, (stops ran).mp never⟩
  · rintro ⟨before, call, after, rfl, behind⟩
    by_contra signs
    obtain ⟨⟨signer, log⟩, ran⟩ := Option.ne_none_iff_exists'.mp signs
    obtain ⟨past, rest, rfl, first, split⟩ := List.map_eq_append_iff.mp (Step.map_fst_log ran)
    obtain ⟨⟨call', request⟩, later, rfl, rfl, -⟩ := List.map_eq_cons_iff.mp split
    obtain ⟨middle, next, ran', signed⟩ := Step.run_split ran
    rw [first] at ran'
    cases signed.symm.trans ((stops ran').mpr behind)

end Account

/-! ## The gateway and its accounts -/

/-- The gateway, with the accounts its REST sessions sign for. -/
structure Signed (core : Symbols) (download : OrderEntry.Download2) where
  system : System core download
  accounts : List Account

namespace Signed

variable {core : Symbols} {download : OrderEntry.Download2}

/-- An event of the gateway, with what the real-time clock reads at the requests of the
turn, in nanoseconds. -/
structure Event where
  event : System.Event
  clock : Nat → Int := fun _ => 0

/-- What the gateway does at an event, and what is signed for it: a path and a reading of
the clock lead to a request. -/
structure Done where
  emitted : List System.Emitted
  signed : List ((String × Int) × HttpRequest)

/-- The constructors; the accounts are made first. -/
def create (core : Symbols) (download : OrderEntry.Download2) (primitives : Primitives)
    (config : Configuration) : Option (Signed core download) := do
  let accounts ← Account.createAll primitives config
  some { system := System.create core download config.toConfig, accounts }

/-- The requests among the calls of a turn, each with its reading of the clock. -/
def calls (clock : Nat → Int) (effects : List OrderEntry.Effect) : List (String × Int) :=
  (effects.filterMap fun
    | .request path _ _ => some path
    | _ => none).mapIdx fun index path => (path, clock index)

/-- The account of a name changes. -/
def replace (account : Account) (accounts : List Account) : List Account :=
  accounts.map fun other => if other.name = account.name then account else other

/-- One event.  `none`: the process stops, or there is no such stream. -/
def step (decoders : OrderEntry.Decoders) (server : Server) (settings : Settings) :
    Step (Signed core download) Event Done :=
  fun state event => do
    let (system, emitted) ← System.step decoders server settings state.system event.event
    match event.event with
    | .controller .. => some ({ state with system }, ⟨emitted, []⟩)
    | .orderEntry name _ =>
      let account ← state.accounts.find? fun account => account.name = name
      let (account, signed) ←
        Account.sign.run account (calls event.clock (System.effectsOf name emitted))
      some ({ system, accounts := replace account state.accounts }, ⟨emitted, signed⟩)

/-- What an entry of a log is for the gateway without its accounts. -/
def systemTrace (entry : Event × Done) : List (System.Event × List System.Emitted) :=
  [(entry.1.event, entry.2.emitted)]

/-- What the clock has read at the requests of an account. -/
def readingsOf (name : String) (log : List (Event × Done)) : List Int :=
  log.flatMap fun entry =>
    match entry.1.event with
    | .controller .. => []
    | .orderEntry other _ =>
      if other = name then entry.2.signed.map fun call => call.1.2 else []

variable {decoders : OrderEntry.Decoders} {server : Server} {settings : Settings}
  {primitives : Primitives} {config : Configuration} {start state state' : Signed core download}
  {event : Event} {events : List Event} {done : Done} {log : List (Event × Done)}

/-- A step of the gateway, in which a turn of a REST session signs for its account. -/
theorem step_cases (stepped : step decoders server settings state event = some (state', done)) :
    System.step decoders server settings state.system event.event =
        some (state'.system, done.emitted) ∧
      ((∃ received external, event.event = .controller received external ∧
          state'.accounts = state.accounts ∧ done.signed = []) ∨
        ∃ name received account account', event.event = .orderEntry name received ∧
          state.accounts.find? (fun account => account.name = name) = some account ∧
          Account.sign.run account (calls event.clock (System.effectsOf name done.emitted)) =
            some (account', done.signed) ∧
          state'.accounts = replace account' state.accounts) := by
  obtain ⟨event, clock⟩ := event
  simp only [step, Option.bind_eq_bind, Option.bind_eq_some_iff] at stepped
  obtain ⟨⟨system, emitted⟩, first, rest⟩ := stepped
  cases event with
  | controller received external =>
    cases rest
    exact ⟨first, .inl ⟨received, external, rfl, rfl, rfl⟩⟩
  | orderEntry name received =>
    simp only [Option.bind_eq_some_iff] at rest
    obtain ⟨account, found, ⟨account', signed⟩, signs, rest⟩ := rest
    cases rest
    exact ⟨first, .inr ⟨name, received, account, account', rfl, found, signs, rfl⟩⟩

theorem simulates_system : Step.Simulates (step decoders server settings)
    (System.step decoders server settings)
    (fun (state : Signed core download) system => state.system = system) systemTrace := by
  rintro state event state' done _ rfl stepped
  exact ⟨state'.system, Step.run_cons.mpr ⟨_, _, [], (step_cases stepped).1, rfl, rfl⟩, rfl⟩

theorem create_eq_some (created : create core download primitives config = some start) :
    start.system = System.create core download config.toConfig ∧
      Account.createAll primitives config = some start.accounts := by
  simp only [create, Option.bind_eq_bind, Option.bind_eq_some_iff] at created
  obtain ⟨accounts, made, rest⟩ := created
  cases rest
  exact ⟨rfl, made⟩

/-- Without its signatures, a run is one of the gateway. -/
theorem system_run (created : create core download primitives config = some start)
    (ran : (step decoders server settings).run start events = some (state, log)) :
    (System.step decoders server settings).run (System.create core download config.toConfig)
      ((log.flatMap systemTrace).map Prod.fst) =
        some (state.system, log.flatMap systemTrace) := by
  obtain ⟨system, ran', rfl⟩ := simulates_system.run (create_eq_some created).1 ran
  exact ran'

/-- The accounts are those of the configuration, and each has the nonce that its own
requests have left. -/
structure Sound (config : Configuration) (accounts : List Account)
    (log : List (Event × Done)) : Prop where
  names : accounts.map Account.name = config.toConfig.accounts
  drawn : ∀ account ∈ accounts, account.Drawn (readingsOf account.name log)

theorem map_name_replace (account : Account) (accounts : List Account) :
    (replace account accounts).map Account.name = accounts.map Account.name := by
  rw [replace, List.map_map]
  refine List.map_congr_left fun found _ => ?_
  simp only [Function.comp_apply]
  split
  · next known => exact known.symm
  · rfl

theorem Sound.step (sound : Sound config state.accounts log)
    (stepped : step decoders server settings state event = some (state', done)) :
    Sound config state'.accounts (log ++ [(event, done)]) := by
  obtain ⟨-, ⟨received, external, same, kept, -⟩ |
    ⟨name, received, account, account', same, found, signs, kept⟩⟩ := step_cases stepped
  · have silent : ∀ name, readingsOf name (log ++ [(event, done)]) = readingsOf name log := by
      simp [readingsOf, same]
    rw [kept]
    exact ⟨sound.names, fun account member => by simpa [silent] using sound.drawn account member⟩
  · obtain rfl : account.name = name := by simpa using List.find?_some found
    have here := sound.drawn account (List.mem_of_find?_eq_some found)
    obtain ⟨drawn, sameName⟩ := here.sign_run signs
    have readings : ∀ other, readingsOf other (log ++ [(event, done)]) =
        readingsOf other log ++ if account.name = other then
          (calls event.clock (System.effectsOf account.name done.emitted)).map Prod.snd else [] := by
      intro other
      rw [← Step.map_fst_log signs]
      simp [readingsOf, same, Function.comp_def]
    refine ⟨?_, ?_⟩
    · rw [kept, map_name_replace, sound.names]
    · rw [kept]
      intro other member
      obtain ⟨before, listed, rfl⟩ := List.mem_map.mp member
      by_cases own : before.name = account'.name
      · rw [if_pos own, readings, sameName, if_pos rfl]
        exact drawn
      · rw [if_neg own, readings, if_neg fun equal => own (equal.symm.trans sameName.symm),
          List.append_nil]
        exact sound.drawn before listed

/-- **Nonces in the gateway.**  In every run each account has the nonce that the readings at
its own requests leave. -/
theorem nonce_run (created : create core download primitives config = some start)
    (ran : (step decoders server settings).run start events = some (state, log)) :
    Sound config state.accounts log := by
  obtain ⟨accounts, made, names, fresh⟩ := Account.createAll_spec primitives config
  obtain rfl := Option.some.inj (made.symm.trans (create_eq_some created).2)
  refine @Step.run_induction _ _ _ _ _ _ _ _
    (fun (state : Signed core download) past => Sound config state.accounts past) [] ran ?_
    ⟨names, fun account member => fresh account member⟩
  intro state past event state' done _ sound stepped
  exact sound.step stepped

/-! ## When the process ends -/

/-- The stream the event is for exists. -/
def Addressed (state : Signed core download) (event : Event) : Prop :=
  System.Addressed state.system event.event

/-- What ends the process after a run. -/
def Fatal (decoders : OrderEntry.Decoders) (settings : Settings) (config : Configuration)
    (state : Signed core download) (log : List (Event × Done)) (event : Event) : Prop :=
  match event.event with
  | .controller received _ =>
    System.Fatal settings config.toConfig (log.flatMap systemTrace) received
  | .orderEntry name received =>
    -- a request of the turn, after those of the account's earlier turns and of this one
    ∃ session next effects, state.system.orderEntry.lookup name = some session ∧
      OrderEntry.step decoders session received = some (next, effects) ∧
      ∃ before call after, calls event.clock effects = before ++ call :: after ∧
        Crypto.Behind (readingsOf name log ++ before.map Prod.snd) call.2

/-- **Stopping.**  In a reachable gateway an event that reaches a stream ends the process
exactly if it is a binary frame, a message of the other side, an order request before
the first token of its account, or leads to a request at which the clock is more than the
threshold behind the last nonce of the account. -/
theorem stops_iff (created : create core download primitives config = some start)
    (ran : (step decoders server settings).run start events = some (state, log))
    (addressed : Addressed state event) :
    step decoders server settings state event = none ↔
      Fatal decoders settings config state log event := by
  have alone := system_run created ran
  obtain ⟨event, clock⟩ := event
  cases event with
  | controller received external =>
    refine Iff.trans ?_ (System.step_controller_eq_none_iff alone addressed)
    cases stepped : System.step decoders server settings state.system
        (.controller received external) <;> simp [step, stepped]
  | orderEntry name received =>
    obtain ⟨session, found⟩ := addressed
    obtain ⟨next, effects, turn⟩ : ∃ next effects,
        OrderEntry.step decoders session received = some (next, effects) := ⟨_, _, rfl⟩
    obtain ⟨⟨system, emitted⟩, stepped⟩ := System.exists_step_orderEntry alone found received
    obtain ⟨found', next', effects', controller, there, turn', -, -, rfl⟩ :=
      System.step_orderEntry stepped
    cases found.symm.trans there
    cases turn.symm.trans turn'
    have sound := nonce_run created ran
    have listed : name ∈ state.accounts.map Account.name := by
      rw [sound.names, ← System.accounts_run alone]
      obtain ⟨front, back, same, -⟩ := List.lookup_eq_some_iff.mp found
      simp [same]
    obtain ⟨account, here⟩ : ∃ account,
        state.accounts.find? (fun account => account.name = name) = some account := by
      simpa [← Option.isSome_iff_exists] using listed
    obtain rfl : account.name = name := by simpa using List.find?_some here
    have drawn := sound.drawn account (List.mem_of_find?_eq_some here)
    have signs : step decoders server settings state ⟨.orderEntry account.name received, clock⟩ =
        none ↔ Account.sign.run account (calls clock effects) = none := by
      simp only [step, stepped, here, Option.bind_eq_bind, Option.bind_some,
        System.effectsOf_orderEntry]
      cases Account.sign.run account (calls clock effects) <;> simp
    rw [signs, drawn.sign_run_eq_none_iff]
    constructor
    · exact fun behind => ⟨session, next, effects, found, turn, behind⟩
    · rintro ⟨other, next', effects', found', turn', behind⟩
      cases found.symm.trans found'
      cases turn.symm.trans turn'
      exact behind

/-- One account, without a passphrase. -/
def oneAccount : Configuration where
  accounts := [⟨"A1", "key-1", "secret-1", "", true⟩]
  nodup := by decide

/-- The token is asked for, and the connection is lost. -/
def asked : List Event :=
  [⟨.orderEntry "A1" { input := .connected }, fun _ => 1769000000000000000⟩,
    ⟨.orderEntry "A1" { input := .disconnected }, fun _ => 1769000000100000000⟩]

/-- It is asked for again, by a clock that has been set back by two seconds. -/
def askedAgain : Event :=
  ⟨.orderEntry "A1" { input := .connected }, fun _ => 1768999998000000000⟩

theorem stops_iff_clockSetBack :
    ∃ (start state : Signed (Symbols.chunked 128 (by decide)) OrderEntry.countingDownload)
      (log : List (Event × Done)),
      create _ _ ⟨fun bytes => bytes, fun _ bytes => bytes, fun _ => ""⟩ oneAccount = some start ∧
      (step OrderEntry.sampleDecoders ⟨255, fun _ => false⟩ {}).run start asked =
        some (state, log) ∧
      (step OrderEntry.sampleDecoders ⟨255, fun _ => false⟩ {} state askedAgain = none ↔
        Fatal OrderEntry.sampleDecoders {} oneAccount state log askedAgain) ∧
      step OrderEntry.sampleDecoders ⟨255, fun _ => false⟩ {} state askedAgain = none := by
  refine ⟨_, _, _, rfl, rfl, ?_, rfl⟩
  exact @stops_iff (Symbols.chunked 128 (by decide)) OrderEntry.countingDownload
    OrderEntry.sampleDecoders ⟨255, fun _ => false⟩ {} _ oneAccount _ _ _ asked _ rfl rfl
    ⟨_, rfl⟩

end Signed

end RoqKraken.Gateway
