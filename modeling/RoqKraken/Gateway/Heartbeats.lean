import RoqKraken.Gateway.Exchange

/-!
# Heartbeats of the public streams

A public stream pings the exchange from its timer, at most once per
`public_ping_freq` and only while it is ready.  `next_heartbeat_` is what it
remembers of its pings; `Beats` says that this is the time of the last one since the
connection dropped, and `heartbeats_run` what follows: pings of one connection are
spaced, and a ready stream whose timer runs is never behind with them.
-/

namespace RoqKraken.Gateway

/-- When a ping was sent; the time is its request id. -/
def Frame.pinged : Frame → Option Int
  | ping reqId => some reqId
  | _ => none

def pings (sent : List Frame) : List Int := sent.filterMap Frame.pinged

@[simp] theorem pings_nil : pings [] = [] := rfl

@[simp] theorem pings_append (left right : List Frame) :
    pings (left ++ right) = pings left ++ pings right := List.filterMap_append

namespace MarketData

variable {core : Symbols} {server : Server} {settings : Settings} {session : MarketData}
  {shared : Shared core}

@[simp] theorem pings_subscribeSymbols (symbols : List String) :
    pings (frames (subscribeSymbols symbols)) = [] := by
  simp only [subscribeSymbols, subscribeChannel]
  split <;> rfl

theorem pings_subscribe (state : core.State) (startFrom : Nat) :
    pings (frames (session.subscribe state startFrom)) = [] := by
  unfold subscribe
  split
  · exact pings_subscribeSymbols _
  · rfl

/-- A disconnect forgets the heartbeat, and no other event of a stream touches it. -/
theorem onEvent_nextHeartbeat {event : Event} {result : Result core}
    (handled : session.onEvent server settings shared event = some result) :
    result.session.nextHeartbeat = if event.isDisconnected then 0 else session.nextHeartbeat := by
  cases event with
  | message message => cases message <;> cases handled <;> rfl
  | _ => cases handled <;> rfl

theorem pings_onEvent {event : Event} {result : Result core}
    (handled : session.onEvent server settings shared event = some result) :
    pings (frames result.outputs) = [] := by
  rw [(onEvent_spec handled).2.2.1]
  unfold Event.sends
  split
  · rw [frames_append, pings_append, pings_subscribeSymbols, List.append_nil]
    split <;> rfl
  · rfl

/-- What a stream remembers of its pings is the time of the last one. -/
def Beats (settings : Settings) (session : MarketData) (sent : List Int) : Prop :=
  session.nextHeartbeat = sent.getLast?.elim 0 fun last => last + settings.publicPingFreq

/-- Each ping comes more than the interval after the one before. -/
def Spaced (settings : Settings) (sent : List Int) : Prop :=
  sent.IsChain fun earlier later => earlier + settings.publicPingFreq < later

/-- A timer keeps both, and leaves a ready stream with a ping in the last interval. -/
theorem onTimer_beats {sent : List Int} {now : Int} (beats : session.Beats settings sent)
    (spaced : Spaced settings sent) :
    (session.onTimer settings now).1.Beats settings
        (sent ++ pings (frames (session.onTimer settings now).2)) ∧
      Spaced settings (sent ++ pings (frames (session.onTimer settings now).2)) ∧
      (session.ready = true → 0 < now → 0 ≤ settings.publicPingFreq →
        ∃ last ∈ sent ++ pings (frames (session.onTimer settings now).2),
          now ≤ last + settings.publicPingFreq) := by
  unfold onTimer
  by_cases ready : session.ready = true
  · simp only [ready, if_true]
    by_cases due : session.nextHeartbeat < now
    · simp only [due, if_true]
      have sends : pings (frames [.send (.ping now)]) = [now] := rfl
      rw [sends]
      refine ⟨by simp [Beats], ?_, fun _ _ interval => ⟨now, by simp, by omega⟩⟩
      refine List.isChain_append.mpr ⟨spaced, .singleton now, fun earlier before later after => ?_⟩
      cases after
      rw [beats, before] at due
      exact due
    · simp only [due, if_false]
      have sends : pings (frames ([] : List Output)) = [] := rfl
      rw [sends, List.append_nil]
      refine ⟨beats, spaced, fun _ positive _ => ?_⟩
      rw [beats] at due
      cases found : sent.getLast? with
      | none =>
        rw [found] at due
        exact absurd positive due
      | some last =>
        rw [found] at due
        exact ⟨last, List.mem_of_getLast? found, Int.not_lt.mp due⟩
  · simp only [ready]
    have sends : pings (frames ([] : List Output)) = [] := rfl
    simp only [Bool.false_eq_true, if_false, sends, List.append_nil]
    exact ⟨beats, spaced, fun up => by cases up⟩

end MarketData

namespace Controller

variable {core : Symbols} {server : Server} {settings : Settings} {config : Config}
  {controller controller' : Controller core} {event : Event} {events : List Event}
  {out : List (Source × Output)} {log : List (Event × List (Source × Output))}
  {index : Nat} {sent : List Int}

/-- Stream `index` remembers its pings; before it is created there are none. -/
def Beats (settings : Settings) (controller : Controller core) (index : Nat) (sent : List Int) :
    Prop :=
  (controller.marketData[index]?).elim (sent = []) fun session => session.Beats settings sent

theorem Beats.congr (beats : controller.Beats settings index sent)
    (same : controller'.marketData = controller.marketData) :
    controller'.Beats settings index sent := by
  unfold Beats at beats ⊢
  rwa [same]

/-- A new stream remembers nothing, and there is nothing to remember. -/
theorem Beats.addMarketData (beats : controller.Beats settings index sent) :
    controller.addMarketData.Beats settings index sent := by
  unfold Beats at beats ⊢
  rw [Controller.addMarketData, List.getElem?_append]
  split
  · exact beats
  · next beyond =>
    rw [List.getElem?_eq_none (Nat.le_of_not_lt beyond)] at beats
    rw [List.getElem?_singleton]
    split
    · cases beats
      rfl
    · exact beats

theorem Beats.onSymbolsUpdate (beats : controller.Beats settings index sent)
    (symbols : List String) : (controller.onSymbolsUpdate symbols).1.Beats settings index sent :=
  @SliceLoop.invariant _ _ _ _ (fun state => state.Beats settings index sent)
    (sliceLoop_ensureSymbolSlices
      { controller with shared := { controller.shared with
          symbols := (core.append controller.shared.symbols symbols).1 } } _)
    (fun _ inv => inv.addMarketData) (beats.congr rfl)

theorem pings_onSymbolsUpdate (symbols : List String) :
    pings (sentBy (.marketData index) (controller.onSymbolsUpdate symbols).2) = [] := by
  rw [Controller.onSymbolsUpdate]
  dsimp only
  generalize (ensureSymbolSlices _ _).marketData = streams
  induction streams with
  | nil => rfl
  | cons session streams ih =>
    rw [List.flatMap_cons, sentBy_append, pings_append, ih, List.append_nil]
    by_cases own : session.index = index
    · rw [own, sentBy_tag_self, MarketData.pings_subscribe]
    · rw [sentBy_tag_of_ne _ (by simpa using own), pings_nil]

/-- The pings of a stream since its last disconnect. -/
def pingsSince (index : Nat) (log : List (Event × List (Source × Output))) : List Int :=
  pings (sentSince (.marketData index) log)

theorem pingsSince_concat (index : Nat) (log : List (Event × List (Source × Output)))
    (entry : Event × List (Source × Output)) : pingsSince index (log ++ [entry]) =
      (if entry.1.disconnects (.marketData index) then [] else pingsSince index log) ++
        pings (sentBy (.marketData index) entry.2) := by
  rw [pingsSince, sentSince_concat, nextSent, pings_append]
  split <;> rfl

theorem beats_marketData {position : Nat} {received : MarketData.Event}
    (beats : controller.Beats settings index sent)
    (stepped : step server settings controller (.marketData position received) =
      some (controller', out)) :
    pings (sentBy (.marketData index) out) = [] ∧
      controller'.Beats settings index
        (if (Event.marketData position received).disconnects (.marketData index) then []
        else sent) := by
  obtain ⟨session, result, found, handled, done⟩ := step_marketData stepped
  have own : pings (sentBy (.marketData index)
      (tag (.marketData session.index) result.outputs)) = [] := by
    by_cases here : session.index = index
    · rw [here, sentBy_tag_self, MarketData.pings_onEvent handled]
    · rw [sentBy_tag_of_ne _ (by simpa using here), pings_nil]
  let after : Controller core :=
    { controller with
      shared := result.shared
      marketData := controller.marketData.set position result.session }
  have now : after.Beats settings index
      (if (Event.marketData position received).disconnects (.marketData index) then []
      else sent) := by
    unfold Beats at beats ⊢
    by_cases here : position = index
    · subst here
      have bound := (List.getElem?_eq_some_iff.mp found).1
      rw [found] at beats
      rw [List.getElem?_set_self bound, Option.elim_some, MarketData.Beats,
        MarketData.onEvent_nextHeartbeat handled]
      simp only [Event.disconnects, decide_true, Bool.true_and]
      split
      · rfl
      · exact beats
    · rw [List.getElem?_set_ne here]
      simpa [Event.disconnects, Ne.symm here] using beats
  rcases done with ⟨-, rfl, rfl⟩ | ⟨rfl, rfl⟩
  · exact ⟨own, now⟩
  · rw [sentBy_append, pings_append, own, pings_onSymbolsUpdate]
    exact ⟨rfl, now.onSymbolsUpdate _⟩

theorem beats_timer {now : Int} (tables : controller.Tables [])
    (beats : controller.Beats settings index sent) (spaced : MarketData.Spaced settings sent) :
    (controller.onTimer settings now).1.Beats settings index
        (sent ++ pings (sentBy (.marketData index) (controller.onTimer settings now).2)) ∧
      MarketData.Spaced settings
        (sent ++ pings (sentBy (.marketData index) (controller.onTimer settings now).2)) ∧
      ((controller.marketData[index]?).any MarketData.ready = true → 0 < now →
        0 ≤ settings.publicPingFreq →
        ∃ last ∈ sent ++ pings (sentBy (.marketData index) (controller.onTimer settings now).2),
          now ≤ last + settings.publicPingFreq) := by
  have sends : sentBy (.marketData index) (controller.onTimer settings now).2 =
      (controller.marketData[index]?).elim [] fun session =>
        frames (session.onTimer settings now).2 :=
    sentBy_flatMap tables.index _
  unfold Beats at beats ⊢
  rw [sends]
  simp only [onTimer, List.getElem?_map]
  cases found : controller.marketData[index]? with
  | none =>
    rw [found] at beats
    simpa using ⟨beats, spaced⟩
  | some session =>
    rw [found] at beats
    obtain ⟨next, chain, fresh⟩ :=
      @MarketData.onTimer_beats settings session sent now beats spaced
    exact ⟨next, chain, fresh⟩

/-- An event at which a stream sends no ping. -/
theorem beats_of_silent (spaced : MarketData.Spaced settings sent)
    (silent : pings (sentBy (.marketData index) out) = [])
    (next : controller'.Beats settings index
      (if event.disconnects (.marketData index) then [] else sent)) :
    controller'.Beats settings index
        ((if event.disconnects (.marketData index) then [] else sent) ++
          pings (sentBy (.marketData index) out)) ∧
      MarketData.Spaced settings
        ((if event.disconnects (.marketData index) then [] else sent) ++
          pings (sentBy (.marketData index) out)) := by
  rw [silent, List.append_nil]
  refine ⟨next, ?_⟩
  split
  · exact .nil
  · exact spaced

/-- What an event does to the pings of a stream. -/
theorem beats_step (tables : controller.Tables []) (beats : controller.Beats settings index sent)
    (spaced : MarketData.Spaced settings sent)
    (stepped : step server settings controller event = some (controller', out)) :
    controller'.Beats settings index
        ((if event.disconnects (.marketData index) then [] else sent) ++
          pings (sentBy (.marketData index) out)) ∧
      MarketData.Spaced settings
        ((if event.disconnects (.marketData index) then [] else sent) ++
          pings (sentBy (.marketData index) out)) := by
  cases event with
  | timer now =>
    obtain ⟨rfl, rfl⟩ := step_timer stepped
    obtain ⟨next, chain, -⟩ := @beats_timer _ settings controller index sent now tables beats spaced
    exact ⟨next, chain⟩
  | marketData position received =>
    obtain ⟨silent, next⟩ := beats_marketData beats stepped
    exact beats_of_silent spaced silent next
  | subscribe symbols =>
    obtain ⟨rfl, rfl⟩ := step_subscribe stepped
    let known : Controller core :=
      { controller with
        shared := { controller.shared with
          allSymbols := (emplaceNew controller.shared.allSymbols symbols).1 } }
    have start : known.Beats settings index sent := beats
    exact beats_of_silent spaced (pings_onSymbolsUpdate _) (start.onSymbolsUpdate _)
  | symbolsUpdate symbols =>
    obtain ⟨rfl, rfl⟩ := step_symbolsUpdate stepped
    exact beats_of_silent spaced (pings_onSymbolsUpdate symbols) (beats.onSymbolsUpdate symbols)
  | tokenUpdate account token =>
    obtain ⟨updated, rfl⟩ := step_tokenUpdate stepped
    exact beats_of_silent spaced rfl (beats.congr (onTokenUpdate_public updated).2)
  | dropCopy account received =>
    obtain ⟨session, next, outputs, -, -, rfl, rfl⟩ := step_dropCopy stepped
    have other : (Event.dropCopy account received).disconnects (.marketData index) = false := by
      simp [Event.disconnects]
    refine beats_of_silent spaced ?_ ?_
    · rw [sentBy_tag_of_ne _ (by simp), pings_nil]
    · rw [other]
      exact beats
  | request request =>
    obtain ⟨rfl, rfl | ⟨session, -, rfl⟩⟩ := step_request stepped
    · exact beats_of_silent spaced rfl beats
    · refine beats_of_silent spaced ?_ beats
      rw [sentBy_tag_of_ne _ (by simp), pings_nil]
  | start | stop =>
    cases stepped
    exact beats_of_silent spaced rfl beats

/-- The timer leaves a stream as ready as it was. -/
theorem ready_onTimer (controller : Controller core) (now : Int) (index : Nat) :
    ((controller.onTimer settings now).1.marketData[index]?).any MarketData.ready =
      (controller.marketData[index]?).any MarketData.ready := by
  simp only [onTimer, List.getElem?_map, Option.any_map]
  exact congrArg (fun up => Option.any up controller.marketData[index]?)
    (funext fun session => (session.onTimer_spec settings now).2.1)

/-- What a run keeps of the pings of its streams; the last part is about a run that a timer
ended. -/
structure Beating (settings : Settings) (controller : Controller core)
    (log : List (Event × List (Source × Output))) : Prop where
  tables : controller.Tables []
  beats : ∀ index, controller.Beats settings index (pingsSince index log)
  spaced : ∀ index, MarketData.Spaced settings (pingsSince index log)
  fresh : ∀ index now out, log.getLast? = some (.timer now, out) →
    (controller.marketData[index]?).any MarketData.ready = true → 0 < now →
    0 ≤ settings.publicPingFreq →
      ∃ last ∈ pingsSince index log, now ≤ last + settings.publicPingFreq

theorem beating_step (sender : event.HasSender)
    {past : List (Event × List (Source × Output))} (inv : controller.Beating settings past)
    (stepped : step server settings controller event = some (controller', out)) :
    controller'.Beating settings (past ++ [(event, out)]) := by
  have next := fun index => beats_step inv.tables (inv.beats index) (inv.spaced index) stepped
  refine ⟨(serves_step sender stepped inv.tables).1, ?_, ?_, ?_⟩
  · intro index
    rw [pingsSince_concat]
    exact (next index).1
  · intro index
    rw [pingsSince_concat]
    exact (next index).2
  · intro index now out' last ready positive interval
    rw [List.getLast?_concat] at last
    cases last
    obtain ⟨rfl, rfl⟩ := step_timer stepped
    rw [ready_onTimer] at ready
    rw [pingsSince_concat]
    exact (@beats_timer _ settings controller index (pingsSince index past) now inv.tables
      (inv.beats index) (inv.spaced index)).2.2 ready positive interval

theorem beating_run
    (ran : (step server settings).run (create core config) events = some (controller, log))
    (senders : ∀ event ∈ events, event.HasSender) : controller.Beating settings log := by
  refine @Step.run_induction _ _ _ _ _ _ _ _
    (fun (controller : Controller core) past => controller.Beating settings past) [] ran ?_ ?_
  · intro controller past event controller' out member inv stepped
    exact beating_step (senders event member) inv stepped
  · refine ⟨tables_create, fun index => ?_, fun index => .nil, fun index now out last => ?_⟩
    · cases index with
      | zero => rfl
      | succ index => rfl
    · cases last

/-- **Heartbeats of a run.**  The pings that a public stream has sent since its last disconnect
are more than the interval apart; and when a timer has reached it while it is ready, the last
one is at most the interval ago. -/
theorem heartbeats_run
    (ran : (step server settings).run (create core config) events = some (controller, log))
    (senders : ∀ event ∈ events, event.HasSender) (index : Nat) :
    (pingsSince index log).IsChain
        (fun earlier later => earlier + settings.publicPingFreq < later) ∧
      ∀ now out, log.getLast? = some (.timer now, out) →
        (controller.marketData[index]?).any MarketData.ready = true → 0 < now →
        0 ≤ settings.publicPingFreq →
          ∃ last ∈ pingsSince index log, now ≤ last + settings.publicPingFreq := by
  have inv := beating_run ran senders
  exact ⟨inv.spaced index, inv.fresh index⟩

/-- Up to the second heartbeat of the first stream. -/
def twoBeats : List Event :=
  [.marketData 0 .ready, .marketData 0 (.message .status), .timer 1, .timer 2,
    .timer 5000000002]

theorem heartbeats_run_twoBeats :
    ∃ (controller : Controller (Symbols.chunked 128 (by decide)))
      (log : List (Event × List (Source × Output))),
      (step ⟨255, fun _ => false⟩ {}).run (create _ ⟨["A1"], by decide⟩) twoBeats =
        some (controller, log) ∧
      (pingsSince 0 log).IsChain (fun earlier later => earlier + 5000000000 < later) ∧
      ∃ last ∈ pingsSince 0 log, 5000000002 ≤ last + 5000000000 := by
  refine ⟨_, _, rfl, ?_⟩
  have beats := @heartbeats_run (Symbols.chunked 128 (by decide)) ⟨255, fun _ => false⟩ {}
    ⟨["A1"], by decide⟩ _ twoBeats _ rfl (by simp [twoBeats, Event.HasSender]) 0
  exact ⟨beats.1, beats.2 5000000002 _ rfl rfl (by decide) (by decide)⟩

end Controller

end RoqKraken.Gateway
