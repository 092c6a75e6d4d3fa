import RoqKraken.Gateway.PrivateSessions
import RoqKraken.Gateway.Downloads
import RoqKraken.Gateway.System
import RoqKraken.Gateway.Turns

/-!
# Where the tokens of private sessions come from

A token is secret to its account.  In a run of the whole gateway every frame of a
private session carries the token of the first response without errors that the
exchange gave to a token request of the same account, `frames_carry_granted_token`;
no event of another account, of a client or of a public stream has a part in it.
-/

namespace RoqKraken.Gateway.System

open Controller (firstToken)

variable {core : Symbols} {download : OrderEntry.Download2} {decoders : OrderEntry.Decoders}
  {server : Server} {settings : Settings} {config : Config} {system system' : System core download}
  {event : Event} {events : List Event} {out : List Emitted} {log : List (Event × List Emitted)}

/-! ## Sessions under their names -/

/-- The session under a name is the one of the account with this name. -/
def Named (system : System core download) : Prop :=
  ∀ account session, system.orderEntry.lookup account = some session → session.account = account

theorem named_create : (create core download config).Named := by
  intro account session found
  obtain ⟨front, back, same, -⟩ := List.lookup_eq_some_iff.mp found
  have member : (account, session) ∈ (create core download config).orderEntry := by simp [same]
  simp only [create, List.mem_map, Prod.mk.injEq] at member
  obtain ⟨entry, -, rfl, rfl⟩ := member
  rfl

theorem named_step (named : system.Named)
    (stepped : step decoders server settings system event = some (system', out)) :
    system'.Named := by
  cases event with
  | controller event external =>
    obtain ⟨controller, outputs, -, rfl, -⟩ := step_controller stepped
    exact named
  | orderEntry name event =>
    obtain ⟨session, next, effects, controller, found, turn, -, rfl, -⟩ := step_orderEntry stepped
    intro account other there
    rw [lookup_replace] at there
    split at there
    · next same =>
      obtain ⟨_, -, rfl⟩ := Option.map_eq_some_iff.mp there
      rw [(OrderEntry.step_constant turn).2, same]
      exact named name session found
    · exact named account other there

/-! ## Tokens that are handed over -/

/-- The token that an entry of the log hands over for an account. -/
def handedToken (account : String) (entry : Event × List Emitted) : Option String :=
  firstToken account ((controllerTrace entry).map Prod.fst)

/-- The response to a token request of the account, with this token in it. -/
def Grants (decoders : OrderEntry.Decoders) (account token : String) : Event → Prop
  | .controller .. => False
  | .orderEntry name event => name = account ∧ ∃ body sequence tokenAck,
      event.input = .ack .token (.ok (.success, body)) sequence ∧
      decoders.tokenAck body = .ok tokenAck ∧ tokenAck.error = [] ∧
      tokenAck.result.token = token

/-- What is handed over for an account was granted to it. -/
theorem grants_of_handedToken (named : system.Named)
    (stepped : step decoders server settings system event = some (system', out))
    {account token : String} (handed : handedToken account (event, out) = some token) :
    Grants decoders account token event := by
  obtain ⟨received, member, own⟩ := List.exists_of_findSome?_eq_some handed
  cases event with
  | controller event external =>
    simp only [controllerTrace, List.map_cons, List.map_nil, List.mem_singleton] at member
    subst member
    cases received <;> first | exact external.elim | cases own
  | orderEntry name event =>
    obtain ⟨session, next, effects, controller, found, turn, -, -, rfl⟩ := step_orderEntry stepped
    simp only [controllerTrace, effectsOf_orderEntry, List.mem_map, List.mem_filterMap] at member
    obtain ⟨_, ⟨⟨effect, index⟩, listed, made⟩, rfl⟩ := member
    have performed : effect ∈ effects := (List.mem_zipIdx' listed).2 ▸ List.getElem_mem _
    cases effect with
    | tokenUpdate holder granted =>
      simp only [System.handed] at made
      split at made
      · cases made
        obtain ⟨mine, rest⟩ := OrderEntry.step_results turn _ performed rfl
        simp only [Controller.Event.tokenFor] at own
        split at own
        · next same =>
          cases own
          exact ⟨by rw [← same, mine, named name session found], rest⟩
        · cases own
      · cases made
    | _ => cases made

theorem firstToken_append (account : String) (past later : List Controller.Event) :
    firstToken account (past ++ later) =
      (firstToken account past).or (firstToken account later) := List.findSome?_append

theorem firstToken_trace (account : String) (past : List (Event × List Emitted)) :
    firstToken account ((past.flatMap controllerTrace).map Prod.fst) =
      past.findSome? (handedToken account) := by
  induction past with
  | nil => rfl
  | cons entry past ih =>
    rw [List.flatMap_cons, List.map_append, firstToken_append, ih, List.findSome?_cons, handedToken]
    cases firstToken account ((controllerTrace entry).map Prod.fst) <;> rfl

/-! ## Runs -/

/-- An account has an entry exactly when it is configured, and a session exactly when
a token of it was handed over: its own one, with the first token. -/
theorem kept_entry (account : String) : Kept server settings
    fun (controller : Controller core) past => controller.entry account =
      if account ∈ config.accounts then
        some ((firstToken account (past.map Prod.fst)).map (account, ·))
      else none where
  step controller past event controller' out _ inv stepped := by
    have last : firstToken account [event] = event.tokenFor account := by
      cases handed : event.tokenFor account <;> simp [firstToken, handed]
    rw [Controller.entry_step stepped, inv, List.map_append, firstToken_append, List.map_singleton,
      last]
    split
    · cases firstToken account (past.map Prod.fst) <;> simp
    · rfl
  skip _ _ inv := inv

theorem entry_run (ran : (step decoders server settings).run (create core download config) events =
      some (system, log)) (account : String) : system.controller.entry account =
    if account ∈ config.accounts then
      some ((log.findSome? (handedToken account)).map (account, ·))
    else none := by
  have start : (Controller.create core config).entry account =
      if account ∈ config.accounts then
        some ((firstToken account (([] : List (Controller.Event × List (Source × Output))).map
          Prod.fst)).map (account, ·))
      else none := Controller.entry_create account
  rw [controller_run (kept_entry account) ran start, firstToken_trace]

theorem named_run (ran : (step decoders server settings).run (create core download config) events =
      some (system, log)) : system.Named ∧
    Throughout (fun _ entry => ∀ account token, handedToken account entry = some token →
      Grants decoders account token entry.1) log := by
  refine @Step.run_induction _ _ _ _ _ _ _ _
    (fun (system : System core download) past => system.Named ∧
      Throughout (fun _ entry => ∀ account token, handedToken account entry = some token →
        Grants decoders account token entry.1) past) [] ran ?_ ⟨named_create, throughout_nil⟩
  intro system past event system' out _ inv stepped
  exact ⟨named_step inv.1 stepped, inv.2.concat fun account token handed =>
    grants_of_handedToken inv.1 stepped handed⟩

/-- **Tokens of the gateway.**  Every frame of a private session carries the token of
the first response that granted one to its own account. -/
theorem frames_carry_granted_token
    (ran : (step decoders server settings).run (create core download config) events =
      some (system, log))
    {past later : List (Event × List Emitted)} (cut : log = past ++ (event, out) :: later)
    {account : String} {frame : Frame}
    (sent : .stream (.dropCopy account) (.send frame) ∈ out) :
    ∃ before granting after token, past = before ++ granting :: after ∧
      (∀ entry ∈ before, handedToken account entry = none) ∧
      handedToken account granting = some token ∧ Grants decoders account token granting.1 ∧
      frame.token? = some token := by
  obtain ⟨reached, next, ranPast, stepped⟩ := Step.run_split (cut ▸ ran)
  cases event with
  | orderEntry name event =>
    obtain ⟨session, next, effects, controller, -, -, -, -, rfl⟩ := step_orderEntry stepped
    simp at sent
  | controller event external =>
    obtain ⟨controller, outputs, first, rfl, rfl⟩ := step_controller stepped
    simp only [List.mem_map, Emitted.stream.injEq, Prod.exists] at sent
    obtain ⟨_, _, sent, rfl, rfl⟩ := sent
    obtain ⟨name, session, found, owner, carried⟩ := Controller.step_sent_token first sent
    have known := entry_run ranPast name
    rw [Controller.entry, found] at known
    split at known
    · obtain ⟨token, handed, same⟩ := Option.map_eq_some_iff.mp (Option.some_inj.mp known).symm
      cases same
      rw [or_self] at owner
      subst owner
      obtain ⟨before, granting, after, split, here, none⟩ := List.findSome?_eq_some_iff.mp handed
      exact ⟨before, granting, after, session.token, split, none, here,
        (named_run ranPast).2 _ _ _ split _ _ here, carried⟩
    · cases known

/-- The exchange grants a token to an account, and its private session comes up. -/
def signIn : List Event :=
  [.orderEntry "A1" { input := .connected },
    .orderEntry "A1" { input := .ack .token (.ok (.success, OrderEntry.tokenBody)) 1 },
    .controller (.dropCopy "A1" (.message .status fun _ => none)) trivial]

theorem frames_carry_granted_token_signIn :
    ∃ (system : System (Symbols.chunked 128 (by decide)) OrderEntry.countingDownload)
      (past : List (Event × List Emitted)) (event : Event) (out : List Emitted),
      (step OrderEntry.sampleDecoders ⟨255, fun _ => false⟩ {}).run (create _ _ ⟨["A1"], by decide⟩)
        signIn = some (system, past ++ [(event, out)]) ∧
      ∃ before granting after token, past = before ++ granting :: after ∧
        (∀ entry ∈ before, handedToken "A1" entry = none) ∧
        handedToken "A1" granting = some token ∧
        Grants OrderEntry.sampleDecoders "A1" token granting.1 ∧
        (Frame.subscribeToken "executions" "T").token? = some token := by
  refine ⟨_, [_, _], _, _, rfl, ?_⟩
  exact @frames_carry_granted_token (Symbols.chunked 128 (by decide)) OrderEntry.countingDownload
    OrderEntry.sampleDecoders ⟨255, fun _ => false⟩ {} ⟨["A1"], by decide⟩ _ _ signIn _ _ rfl
    [_, _] [] rfl "A1" (.subscribeToken "executions" "T") (by decide)

end RoqKraken.Gateway.System
