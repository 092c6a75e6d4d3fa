import RoqKraken.Simulation
import RoqKraken.Gateway.Controller
import RoqKraken.Gateway.OrderEntry

/-!
# The gateway with its REST sessions

The controller owns an `OrderEntry` for each account.  A token that one of them
receives reaches the controller within the same call, and the controller creates
the private session of the account.  `System.step` puts the two together; of the
updates that `Controller.step` takes as events of their own, those of symbols are
sent by the public streams and those of tokens by the REST sessions.

What a step of the controller keeps holds in the whole gateway,
`System.controller_run`, and the REST session of an account does in it what it
does alone, `System.simulates_orderEntry`.
-/

namespace RoqKraken.Gateway

namespace Controller

variable {core : Symbols}

/-- What reaches the controller from outside.  Updates come from its own streams. -/
def Event.External : Event → Prop
  | .symbolsUpdate _ | .tokenUpdate _ _ => False
  | _ => True

/-- `operator()(Trace<TokenUpdate>)` when the private session cannot be created:
its entry stays null, and the id that was drawn for it is lost. -/
def onTokenUpdateRaised (controller : Controller core) (account : String) :
    Option (Controller core) :=
  match controller.dropCopy.lookup account with
  | none => none
  | some (some _) => some controller
  | some none => some { controller with streamId := controller.streamId + 1 }

theorem onTokenUpdateRaised_cases {controller controller' : Controller core} {account : String}
    (updated : controller.onTokenUpdateRaised account = some controller') :
    controller' = controller ∨
      controller' = { controller with streamId := controller.streamId + 1 } := by
  unfold onTokenUpdateRaised at updated
  split at updated <;> cases updated
  · exact .inl rfl
  · exact .inr rfl

section Step

variable {server : Server} {settings : Settings} {controller controller' : Controller core}
  {out : List (Source × Output)}

theorem step_subscribe {symbols : List String}
    (stepped : step server settings controller (.subscribe symbols) = some (controller', out)) :
    controller' = (controller.onSubscribe symbols).1 ∧
      out = (controller.onSubscribe symbols).2 :=
  ⟨congrArg Prod.fst (Option.some.inj stepped).symm,
    congrArg Prod.snd (Option.some.inj stepped).symm⟩

theorem step_symbolsUpdate {symbols : List String}
    (stepped : step server settings controller (.symbolsUpdate symbols) =
      some (controller', out)) :
    controller' = (controller.onSymbolsUpdate symbols).1 ∧
      out = (controller.onSymbolsUpdate symbols).2 :=
  ⟨congrArg Prod.fst (Option.some.inj stepped).symm,
    congrArg Prod.snd (Option.some.inj stepped).symm⟩

theorem step_timer {now : Int}
    (stepped : step server settings controller (.timer now) = some (controller', out)) :
    controller' = (controller.onTimer settings now).1 ∧
      out = (controller.onTimer settings now).2 :=
  ⟨congrArg Prod.fst (Option.some.inj stepped).symm,
    congrArg Prod.snd (Option.some.inj stepped).symm⟩

end Step

end Controller

/-- The controller, and the sessions in its table `order_entry_`. -/
structure System (core : Symbols) (download : OrderEntry.Download2) where
  controller : Controller core
  orderEntry : List (String × OrderEntry download)

namespace System

variable {core : Symbols} {download : OrderEntry.Download2}

/-! ## Tables by account -/

/-- The session of an account changes. -/
def replace (account : String) (session : OrderEntry download)
    (table : List (String × OrderEntry download)) : List (String × OrderEntry download) :=
  table.map fun entry => if entry.1 = account then (account, session) else entry

theorem lookup_replace (account key : String) (session : OrderEntry download)
    (table : List (String × OrderEntry download)) :
    (replace account session table).lookup key =
      if key = account then (table.lookup key).map fun _ => session else table.lookup key := by
  induction table with
  | nil => simp [replace]
  | cons entry table ih =>
    obtain ⟨name, value⟩ := entry
    simp only [replace, List.map_cons] at ih ⊢
    by_cases here : name = account
    · subst here
      by_cases found : key = name
      · simp [found]
      · simpa [found, List.lookup_cons, beq_false_of_ne found] using ih
    · by_cases found : key = name
      · subst found
        simp [here]
      · simpa [here, List.lookup_cons, beq_false_of_ne found] using ih

@[simp] theorem map_fst_replace (account : String) (session : OrderEntry download)
    (table : List (String × OrderEntry download)) :
    (replace account session table).map Prod.fst = table.map Prod.fst := by
  rw [replace, List.map_map]
  refine List.map_congr_left fun entry _ => ?_
  simp only [Function.comp_apply]
  split
  · next same => exact same.symm
  · rfl

/-! ## The gateway as a machine -/

/-- The constructor. -/
def create (core : Symbols) (download : OrderEntry.Download2) (config : Config) :
    System core download :=
  let controller := Controller.create core config
  { controller
    orderEntry := controller.orderEntry.map fun entry =>
      (entry.1, OrderEntry.create download entry.2 entry.1) }

inductive Event where
  | controller (event : Controller.Event) (external : event.External)
  | orderEntry (account : String) (event : OrderEntry.Event)

/-- One thing the gateway does: a public or private stream puts something out, or a
REST session does. -/
inductive Emitted where
  | stream (source : Source) (output : Output)
  | orderEntry (account : String) (effect : OrderEntry.Effect)
deriving DecidableEq

/-- What a call of a REST session does to the controller, its position in the turn
says whether it raises. -/
def handToken (raises : Nat → Option OrderEntry.Exception) (controller : Controller core)
    (call : OrderEntry.Effect × Nat) : Option (Controller core) :=
  match call.1 with
  | .tokenUpdate account token =>
    match raises call.2 with
    | none => controller.onTokenUpdate account token
    | some _ => controller.onTokenUpdateRaised account
  | _ => some controller

def handTokens (raises : Nat → Option OrderEntry.Exception) (controller : Controller core)
    (calls : List (OrderEntry.Effect × Nat)) : Option (Controller core) :=
  calls.foldlM (handToken raises) controller

/-- One event of the gateway.  `none`: the process stops, or there is no such
stream. -/
def step (decoders : OrderEntry.Decoders) (server : Server) (settings : Settings) :
    Step (System core download) Event (List Emitted) :=
  fun system event =>
    match event with
    | .controller event _ => do
      let (controller, out) ← Controller.step server settings system.controller event
      some ({ system with controller }, out.map fun entry => .stream entry.1 entry.2)
    | .orderEntry account event => do
      let session ← system.orderEntry.lookup account
      let (session, effects) ← OrderEntry.step decoders session event
      let controller ← handTokens event.raises system.controller effects.zipIdx
      some ({ controller, orderEntry := replace account session system.orderEntry },
        effects.map (.orderEntry account))

section Step

variable {decoders : OrderEntry.Decoders} {server : Server} {settings : Settings}
  {system system' : System core download} {out : List Emitted}

theorem step_controller {event : Controller.Event} {external : event.External}
    (stepped : step decoders server settings system (.controller event external) =
      some (system', out)) :
    ∃ controller outputs,
      Controller.step server settings system.controller event = some (controller, outputs) ∧
      system' = { system with controller } ∧
      out = outputs.map fun entry => .stream entry.1 entry.2 := by
  simp only [step, Option.bind_eq_bind, Option.bind_eq_some_iff] at stepped
  obtain ⟨⟨controller, outputs⟩, first, rest⟩ := stepped
  cases rest
  exact ⟨controller, outputs, first, rfl, rfl⟩

theorem step_orderEntry {account : String} {event : OrderEntry.Event}
    (stepped : step decoders server settings system (.orderEntry account event) =
      some (system', out)) :
    ∃ session next effects controller, system.orderEntry.lookup account = some session ∧
      OrderEntry.step decoders session event = some (next, effects) ∧
      handTokens event.raises system.controller effects.zipIdx = some controller ∧
      system' = { controller, orderEntry := replace account next system.orderEntry } ∧
      out = effects.map (.orderEntry account) := by
  simp only [step, Option.bind_eq_bind, Option.bind_eq_some_iff] at stepped
  obtain ⟨session, found, ⟨next, effects⟩, turn, controller, handed, rest⟩ := stepped
  cases rest
  exact ⟨session, next, effects, controller, found, turn, handed, rfl, rfl⟩

end Step

/-! ## What the controller sees -/

/-- What the streams put out. -/
def streamOutputs (out : List Emitted) : List (Source × Output) :=
  out.filterMap fun
    | .stream source output => some (source, output)
    | .orderEntry .. => none

/-- What the REST session of an account does. -/
def effectsOf (account : String) (out : List Emitted) : List OrderEntry.Effect :=
  out.filterMap fun
    | .stream .. => none
    | .orderEntry name effect => if name = account then some effect else none

@[simp] theorem streamOutputs_stream (outputs : List (Source × Output)) :
    streamOutputs (outputs.map fun entry => .stream entry.1 entry.2) = outputs := by
  simp [streamOutputs, List.filterMap_map]

@[simp] theorem streamOutputs_orderEntry (account : String) (effects : List OrderEntry.Effect) :
    streamOutputs (effects.map (.orderEntry account)) = [] := by
  simp [streamOutputs, List.filterMap_map]

@[simp] theorem effectsOf_stream (account : String) (outputs : List (Source × Output)) :
    effectsOf account (outputs.map fun entry => .stream entry.1 entry.2) = [] := by
  simp [effectsOf, List.filterMap_map]

@[simp] theorem effectsOf_orderEntry (account : String) (effects : List OrderEntry.Effect) :
    effectsOf account (effects.map (.orderEntry account)) = effects := by
  simp [effectsOf, List.filterMap_map]

/-- The token update that a call of a REST session amounts to. -/
def handed (raises : Nat → Option OrderEntry.Exception) (call : OrderEntry.Effect × Nat) :
    Option (Controller.Event × List (Source × Output)) :=
  match call.1 with
  | .tokenUpdate account token =>
    if (raises call.2).isNone then some (.tokenUpdate account token, []) else none
  | _ => none

/-- The events of the controller in one entry of a log. -/
def controllerTrace : Event × List Emitted → List (Controller.Event × List (Source × Output))
  | (.controller event _, out) => [(event, streamOutputs out)]
  | (.orderEntry account event, out) =>
    (effectsOf account out).zipIdx.filterMap (handed event.raises)

section Run

variable {decoders : OrderEntry.Decoders} {server : Server} {settings : Settings}
  {Inv : Controller core → List (Controller.Event × List (Source × Output)) → Prop}

/-- A property of the controller and its log that every step keeps, and that does not
look at the counter of stream ids. -/
structure Kept (server : Server) (settings : Settings)
    (Inv : Controller core → List (Controller.Event × List (Source × Output)) → Prop) :
    Prop where
  step : ∀ controller past event controller' out, (∀ symbols, event ≠ .symbolsUpdate symbols) →
    Inv controller past → Controller.step server settings controller event =
      some (controller', out) → Inv controller' (past ++ [(event, out)])
  skip : ∀ controller past, Inv controller past →
    Inv { controller with streamId := controller.streamId + 1 } past

theorem Kept.handToken (kept : Kept server settings Inv)
    {raises : Nat → Option OrderEntry.Exception} {controller controller' : Controller core}
    {past : List (Controller.Event × List (Source × Output))} {call : OrderEntry.Effect × Nat}
    (inv : Inv controller past)
    (done : handToken raises controller call = some controller') :
    Inv controller' (past ++ (handed raises call).toList) := by
  obtain ⟨effect, index⟩ := call
  cases effect with
  | tokenUpdate account token =>
    simp only [System.handToken, handed] at done ⊢
    cases raised : raises index with
    | none =>
      rw [raised] at done
      have updated : controller.onTokenUpdate account token = some controller' := done
      refine kept.step _ _ (.tokenUpdate account token) _ [] (fun _ => nofun) inv ?_
      rw [Controller.step, updated]
      rfl
    | some exception =>
      rw [raised] at done
      rcases Controller.onTokenUpdateRaised_cases done with rfl | rfl
      · simpa using inv
      · simpa using kept.skip controller past inv
  | _ =>
    cases done
    simpa [handed] using inv

theorem Kept.handTokens (kept : Kept server settings Inv)
    {raises : Nat → Option OrderEntry.Exception} {calls : List (OrderEntry.Effect × Nat)}
    {controller controller' : Controller core}
    {past : List (Controller.Event × List (Source × Output))} (inv : Inv controller past)
    (done : handTokens raises controller calls = some controller') :
    Inv controller' (past ++ calls.filterMap (handed raises)) := by
  induction calls generalizing controller past with
  | nil =>
    cases done
    simpa using inv
  | cons call calls ih =>
    simp only [System.handTokens, List.foldlM_cons, Option.bind_eq_bind,
      Option.bind_eq_some_iff] at done
    obtain ⟨next, first, rest⟩ := done
    have after := ih (kept.handToken inv first) rest
    cases made : handed raises call <;> simpa [made] using after

/-- **The controller in the whole gateway.**  What is kept holds of the controller
and its events in every run of the gateway. -/
theorem controller_run (kept : Kept server settings Inv) {config : Config} {events : List Event}
    {system : System core download} {log : List (Event × List Emitted)}
    (ran : (step decoders server settings).run (create core download config) events =
      some (system, log)) (start : Inv (Controller.create core config) []) :
    Inv system.controller (log.flatMap controllerTrace) := by
  refine @Step.run_induction _ _ _ _ _ _ _ _
    (fun (system : System core download) past =>
      Inv system.controller (past.flatMap controllerTrace)) [] ran ?_ start
  intro system past event system' out _ inv stepped
  rw [List.flatMap_append, List.flatMap_singleton]
  cases event with
  | controller event external =>
    obtain ⟨controller, outputs, first, rfl, rfl⟩ := step_controller stepped
    rw [controllerTrace, streamOutputs_stream]
    refine kept.step _ _ event _ outputs ?_ inv first
    rintro symbols rfl
    exact external
  | orderEntry account event =>
    obtain ⟨session, next, effects, controller, -, -, tokens, rfl, rfl⟩ := step_orderEntry stepped
    rw [controllerTrace, effectsOf_orderEntry]
    exact kept.handTokens inv tokens

end Run

end System

end RoqKraken.Gateway
