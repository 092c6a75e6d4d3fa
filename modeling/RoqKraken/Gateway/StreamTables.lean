import RoqKraken.Drawn
import RoqKraken.WhileLoop
import RoqKraken.Gateway.PrivateSessions
import RoqKraken.Gateway.Streams
import Mathlib.Logic.Relation

/-!
# The stream tables of the gateway

Three kinds of streams draw their ids from one counter of 16 bits: the
constructor creates the first public stream and all `OrderEntry`, symbols add
public streams, tokens add private sessions.  `StreamTables` is what the
controller keeps of that, and `StreamTables.Draws` the two ways in which it
grows; every event of the gateway does that and nothing else to the tables
(`grow_step`), so that what a draw keeps holds over a whole run.
-/

namespace RoqKraken.Gateway

/-! ## Tables that grow -/

/-- What tells the streams of a controller apart, and its counter. -/
structure StreamTables where
  streamId : UInt16
  /-- The id and the index of each public stream. -/
  marketData : List (UInt16 × Nat)
  orderEntry : List (String × UInt16)
  dropCopy : List (String × Option UInt16)

namespace StreamTables

variable {tables tables' before after : StreamTables} {accounts : List String}

/-- The id that is drawn after `draw` others. -/
def nthId (draw : Nat) : UInt16 := .ofNat (draw + 1)

/-- The ids of all streams. -/
def streamIds (tables : StreamTables) : List UInt16 :=
  tables.marketData.map Prod.fst ++ tables.orderEntry.map Prod.snd ++
    tables.dropCopy.filterMap Prod.snd

/-- A new stream draws the next id: a public stream behind the others, or the
private session of an account that has none. -/
inductive Draws : StreamTables → StreamTables → Prop
  | marketData (tables : StreamTables) :
    Draws tables { tables with
      streamId := tables.streamId + 1
      marketData := tables.marketData ++ [(tables.streamId + 1, tables.marketData.length)] }
  | dropCopy {tables : StreamTables} {front back : List (String × Option UInt16)}
    {account : String} : tables.dropCopy = front ++ (account, none) :: back →
    Draws tables { tables with
      streamId := tables.streamId + 1
      dropCopy := front ++ (account, some (tables.streamId + 1)) :: back }

/-- The tables of a gateway with these accounts: public streams in the order of
their indices, one entry for each account, and all ids drawn from the counter. -/
structure Sound (accounts : List String) (tables : StreamTables) : Prop where
  index : tables.marketData.map Prod.snd = List.range tables.marketData.length
  orderEntry : tables.orderEntry.map Prod.fst = accounts
  dropCopy : tables.dropCopy.map Prod.fst = accounts
  drawn : ∃ count, tables.streamId = .ofNat count ∧ Drawn nthId count tables.streamIds

theorem Draws.sound (draws : Draws tables tables') (sound : tables.Sound accounts) :
    tables'.Sound accounts := by
  obtain ⟨count, counter, drawn⟩ := sound.drawn
  have next : tables.streamId + 1 = nthId count := by
    rw [counter, nthId, UInt16.ofNat_add]
    rfl
  have counter' : tables.streamId + 1 = .ofNat (count + 1) := next
  cases draws with
  | marketData =>
    refine ⟨?_, sound.orderEntry, sound.dropCopy, count + 1, counter', ?_⟩
    · rw [List.map_append, sound.index, List.length_append, List.length_singleton,
        List.range_succ]
      rfl
    · rw [streamIds, List.append_assoc] at drawn
      have drawn' := drawn.insert
      rw [← next] at drawn'
      simpa [streamIds] using drawn'
  | @dropCopy front back account vacant =>
    refine ⟨sound.index, sound.orderEntry, ?_, count + 1, counter', ?_⟩
    · rw [← sound.dropCopy, vacant]
      simp
    · rw [streamIds, vacant, List.filterMap_append, List.filterMap_cons_none rfl,
        ← List.append_assoc] at drawn
      have drawn' := drawn.insert
      rw [← next] at drawn'
      simpa [streamIds] using drawn'

/-- Fewer ids than the counter has are not zero and do not repeat. -/
theorem Sound.distinct (sound : tables.Sound accounts)
    (few : tables.streamIds.length < 65536) :
    tables.streamIds.Nodup ∧ 0 ∉ tables.streamIds := by
  obtain ⟨count, -, drawn⟩ := sound.drawn
  rw [drawn.length_eq] at few
  have value : ∀ draw < count, (nthId draw).toNat = draw + 1 := by
    intro draw bound
    exact UInt16.toNat_ofNat_of_lt' (Nat.lt_of_le_of_lt bound few)
  constructor
  · refine drawn.nodup fun draw bound draw' bound' same => ?_
    have equal := congrArg UInt16.toNat same
    rw [value draw bound, value draw' bound'] at equal
    omega
  · intro member
    obtain ⟨draw, bound, zero⟩ := drawn.mem_iff.mp member
    have equal := congrArg UInt16.toNat zero
    rw [value draw bound] at equal
    cases equal

/-- Later tables have all streams of earlier ones where these were. -/
structure Extends (before after : StreamTables) : Prop where
  marketData : before.marketData <+: after.marketData
  orderEntry : after.orderEntry = before.orderEntry
  dropCopy : ∀ account streamId, (account, some streamId) ∈ before.dropCopy →
    (account, some streamId) ∈ after.dropCopy

theorem Extends.trans {later : StreamTables} (first : before.Extends after)
    (second : after.Extends later) : before.Extends later where
  marketData := first.marketData.trans second.marketData
  orderEntry := second.orderEntry.trans first.orderEntry
  dropCopy _ _ member := second.dropCopy _ _ (first.dropCopy _ _ member)

theorem Draws.extends (draws : Draws before after) : before.Extends after := by
  cases draws with
  | marketData => exact ⟨List.prefix_append _ _, rfl, fun _ _ member => member⟩
  | dropCopy vacant =>
    refine ⟨List.prefix_rfl, rfl, fun _ _ member => ?_⟩
    rw [vacant] at member
    simp only [List.mem_append, List.mem_cons, Prod.mk.injEq, reduceCtorEq, and_false,
      false_or] at member ⊢
    exact member.imp_right .inr

/-- Any number of draws. -/
abbrev Grow : StreamTables → StreamTables → Prop := Relation.ReflTransGen Draws

theorem Grow.sound (grow : Grow before after) (sound : before.Sound accounts) :
    after.Sound accounts := by
  induction grow with
  | refl => exact sound
  | tail _ draws ih => exact draws.sound ih

theorem Grow.extends (grow : Grow before after) : before.Extends after := by
  induction grow with
  | refl => exact ⟨List.prefix_rfl, rfl, fun _ _ member => member⟩
  | tail _ draws ih => exact ih.trans draws.extends

end StreamTables

/-! ## The tables of a controller -/

namespace MarketData

variable {core : Symbols} {server : Server} {settings : Settings} {session : MarketData}
  {shared : Shared core}

/-- The id and the index of a stream. -/
def identity (session : MarketData) : UInt16 × Nat := (session.streamId, session.index)

theorem identity_onEvent {event : Event} {result : Result core}
    (handled : session.onEvent server settings shared event = some result) :
    result.session.identity = session.identity := by
  cases event with
  | message message => cases message <;> cases handled <;> rfl
  | _ => cases handled <;> rfl

theorem identity_onTimer (session : MarketData) (settings : Settings) (now : Int) :
    (session.onTimer settings now).1.identity = session.identity := by
  unfold onTimer
  split
  · split <;> rfl
  · rfl

end MarketData

namespace Controller

open StreamTables

variable {core : Symbols} {server : Server} {settings : Settings} {config : Config}
  {controller controller' : Controller core} {event : Event} {events : List Event}
  {out : List (Source × Output)} {log : List (Event × List (Source × Output))}

def streamTables (controller : Controller core) : StreamTables where
  streamId := controller.streamId
  marketData := controller.marketData.map MarketData.identity
  orderEntry := controller.orderEntry
  dropCopy := controller.dropCopy.map fun entry => (entry.1, entry.2.map DropCopy.streamId)

/-- Every `OrderEntry` of the constructor draws an id. -/
theorem createOrderEntry_spec (accounts : List String) {streamId : UInt16} {count : Nat}
    {streamIds : List UInt16} (counter : streamId = .ofNat count)
    (drawn : Drawn nthId count streamIds) :
    (createOrderEntry streamId accounts).2.map Prod.fst = accounts ∧
      ∃ count', (createOrderEntry streamId accounts).1 = .ofNat count' ∧
        Drawn nthId count'
          (streamIds ++ (createOrderEntry streamId accounts).2.map Prod.snd) := by
  induction accounts generalizing streamId count streamIds with
  | nil => exact ⟨rfl, count, counter, by simpa [createOrderEntry] using drawn⟩
  | cons account accounts ih =>
    have next : streamId + 1 = nthId count := by
      rw [counter, nthId, UInt16.ofNat_add]
      rfl
    have drawn' : Drawn nthId (count + 1) (streamIds ++ [streamId + 1]) := by
      rw [next]
      exact Drawn.insert (by rwa [List.append_nil])
    obtain ⟨keys, count', last, all⟩ := ih next drawn'
    refine ⟨congrArg (account :: ·) keys, count', last, ?_⟩
    simpa [createOrderEntry] using all

theorem sound_create : (create core config).streamTables.Sound config.accounts := by
  have first : Drawn nthId 1 [1] := @Drawn.insert _ nthId 0 [] [] Drawn.zero
  obtain ⟨keys, count, last, drawn⟩ := createOrderEntry_spec config.accounts rfl first
  refine ⟨rfl, keys, ?_, count, last, ?_⟩
  · simp [streamTables, create, createDropCopy, Function.comp_def]
  · simpa [streamTables, streamIds, create, createDropCopy, MarketData.identity] using drawn

/-! ## Public streams -/

theorem grow_addMarketData (controller : Controller core) :
    Grow controller.streamTables controller.addMarketData.streamTables := by
  have tables : controller.addMarketData.streamTables =
      { controller.streamTables with
        streamId := controller.streamTables.streamId + 1
        marketData := controller.streamTables.marketData ++
          [(controller.streamTables.streamId + 1,
            controller.streamTables.marketData.length)] } := by
    simp [streamTables, addMarketData, MarketData.identity]
  rw [tables]
  exact .single (.marketData _)

variable {size : Nat}

theorem SliceLoop.grow (loop : SliceLoop size controller controller') :
    Grow controller.streamTables controller'.streamTables := by
  refine @SliceLoop.invariant _ _ _ _
    (fun state => Grow controller.streamTables state.streamTables) loop
    (fun state grown => ?_) .refl
  exact grown.trans (grow_addMarketData state)

theorem length_streamTables (controller : Controller core) :
    controller.streamTables.marketData.length = controller.marketData.length :=
  List.length_map _

theorem SliceLoop.not_fewer (loop : SliceLoop size controller controller') :
    controller.marketData.length ≤ controller'.marketData.length := by
  rw [← length_streamTables, ← length_streamTables]
  exact (loop.grow.extends).marketData.length_le

/-- The controller as a symbols update calls `ensure_symbol_slices`. -/
def withSymbols (controller : Controller core) (symbols : core.State) : Controller core :=
  { controller with shared := { controller.shared with symbols } }

theorem grow_onSymbolsUpdate (controller : Controller core) (symbols : List String) :
    Grow controller.streamTables (controller.onSymbolsUpdate symbols).1.streamTables :=
  (sliceLoop_ensureSymbolSlices
    (controller.withSymbols (core.append controller.shared.symbols symbols).1) _).grow

/-! ## Private sessions -/

/-- Where accounts have one entry each, a session is assigned to the one entry of
its account. -/
theorem assign_entry {table : List (String × Option DropCopy)} {account : String}
    {entry : Option DropCopy} (keys : (table.map Prod.fst).Nodup)
    (found : table.lookup account = some entry) :
    ∃ front back, table = front ++ (account, entry) :: back ∧
      ∀ session, assign account session table = front ++ (account, some session) :: back := by
  obtain ⟨front, back, rfl, -⟩ := List.lookup_eq_some_iff.mp found
  refine ⟨front, back, rfl, fun session => ?_⟩
  simp only [List.map_append, List.map_cons, List.nodup_append', List.nodup_cons,
    List.disjoint_cons_right] at keys
  obtain ⟨-, ⟨behind, -⟩, before, -⟩ := keys
  have others : ∀ part : List (String × Option DropCopy), account ∉ part.map Prod.fst →
      assign account session part = part := by
    intro part absent
    refine (List.map_congr_left fun entry member => ?_).trans (List.map_id part)
    exact if_neg fun same => absent (List.mem_map.mpr ⟨entry, member, same⟩)
  have split : assign account session (front ++ (account, entry) :: back) =
      assign account session front ++ (account, some session) ::
        assign account session back := by
    simp [assign]
  rw [split, others front before, others back behind]

theorem map_fst_dropCopy (sound : controller.streamTables.Sound config.accounts) :
    controller.dropCopy.map Prod.fst = config.accounts := by
  rw [← sound.dropCopy, streamTables, List.map_map]
  rfl

theorem nodup_accounts (sound : controller.streamTables.Sound config.accounts) :
    (controller.dropCopy.map Prod.fst).Nodup := by
  rw [map_fst_dropCopy sound]
  exact config.nodup

theorem grow_onTokenUpdate {account token : String}
    (keys : (controller.dropCopy.map Prod.fst).Nodup)
    (updated : controller.onTokenUpdate account token = some controller') :
    Grow controller.streamTables controller'.streamTables := by
  unfold onTokenUpdate at updated
  split at updated
  · cases updated
  · cases updated
    exact .refl
  · next found =>
    cases updated
    obtain ⟨front, back, vacant, assigned⟩ := assign_entry keys found
    let part := List.map fun entry : String × Option DropCopy =>
      (entry.1, entry.2.map DropCopy.streamId)
    have before : controller.streamTables.dropCopy =
        part front ++ (account, none) :: part back := by
      rw [streamTables, vacant]
      exact List.map_append
    refine .single ?_
    convert Draws.dropCopy before using 1
    simp only [streamTables, assigned]
    simp [part]

/-- An event of a private session leaves its id where it is. -/
theorem streamTables_dropCopy {account : String} {received : DropCopy.Event}
    (keys : (controller.dropCopy.map Prod.fst).Nodup)
    (stepped : step server settings controller (.dropCopy account received) =
      some (controller', out)) :
    controller'.streamTables = controller.streamTables := by
  obtain ⟨session, next, outputs, found, first, rfl, -⟩ := step_dropCopy stepped
  obtain ⟨front, back, table, assigned⟩ := assign_entry keys found
  obtain ⟨sameId, -, -⟩ := DropCopy.step_constant first
  simp only [streamTables, assigned, List.map_append, List.map_cons, Option.map_some, sameId]
  rw [table, List.map_append, List.map_cons, Option.map_some]

/-- So does an event of a public stream, before its new symbols are announced. -/
theorem identity_set {position : Nat} {session : MarketData} {received : MarketData.Event}
    {result : MarketData.Result core}
    (found : controller.marketData[position]? = some session)
    (handled : session.onEvent server settings controller.shared received = some result) :
    (controller.marketData.set position result.session).map MarketData.identity =
      controller.marketData.map MarketData.identity := by
  obtain ⟨bound, here⟩ := List.getElem?_eq_some_iff.mp found
  rw [List.map_set, MarketData.identity_onEvent handled, ← here, ← List.map_set,
    List.set_getElem_self]

/-- **Growth.**  Every event of the gateway makes the stream tables grow, by any
number of streams. -/
theorem grow_step (keys : (controller.dropCopy.map Prod.fst).Nodup)
    (stepped : step server settings controller event = some (controller', out)) :
    Grow controller.streamTables controller'.streamTables := by
  cases event with
  | start | stop =>
    cases stepped
    exact .refl
  | request request =>
    obtain ⟨rfl, -⟩ := step_request stepped
    exact .refl
  | timer now =>
    cases stepped
    have same : (controller.onTimer settings now).1.streamTables = controller.streamTables := by
      simp only [onTimer, streamTables, List.map_map]
      congr 1
      exact List.map_congr_left fun session _ => session.identity_onTimer settings now
    exact same ▸ .refl
  | subscribe symbols =>
    cases stepped
    exact grow_onSymbolsUpdate
      { controller with shared := { controller.shared with
          allSymbols := (emplaceNew controller.shared.allSymbols symbols).1 } } _
  | symbolsUpdate symbols =>
    cases stepped
    exact grow_onSymbolsUpdate controller symbols
  | tokenUpdate account token => exact grow_onTokenUpdate keys (step_tokenUpdate stepped).1
  | dropCopy account received => rw [streamTables_dropCopy keys stepped]
  | marketData position received =>
    obtain ⟨session, result, found, handled, moved⟩ := step_marketData stepped
    have same : ({ controller with
        shared := result.shared
        marketData := controller.marketData.set position result.session } :
          Controller core).streamTables = controller.streamTables := by
      simp only [streamTables, identity_set found handled]
    rcases moved with ⟨-, rfl, -⟩ | ⟨rfl, -⟩
    · rw [same]
    · rw [← same]
      exact grow_onSymbolsUpdate _ _

/-! ## Runs -/

theorem grow_run (sound : controller.streamTables.Sound config.accounts)
    (ran : (step server settings).run controller events = some (controller', log)) :
    Grow controller.streamTables controller'.streamTables := by
  refine (@Step.run_induction _ _ _ _ _ _ _ _
    (fun state _ => state.streamTables.Sound config.accounts ∧
      Grow controller.streamTables state.streamTables) [] ran ?_ ⟨sound, .refl⟩).2
  rintro before past event after out member ⟨sound, grown⟩ stepped
  have grow := grow_step (nodup_accounts sound) stepped
  exact ⟨grow.sound sound, grown.trans grow⟩

theorem sound_run
    (ran : (step server settings).run (create core config) events = some (controller, log)) :
    controller.streamTables.Sound config.accounts :=
  (grow_run sound_create ran).sound sound_create

/-- A call of `ensure_symbol_slices` ends, in this state and no other, with a stream
for every slice, and no fewer than there were. -/
structure EnsuresSlices (controller : Controller core) (size : Nat)
    (final : Controller core) : Prop where
  ends : ∀ other, SliceLoop size controller other ↔ other = final
  enough : size ≤ final.marketData.length
  notFewer : controller.marketData.length ≤ final.marketData.length

theorem ensuresSlices_ensureSymbolSlices (controller : Controller core) (size : Nat) :
    EnsuresSlices controller size (controller.ensureSymbolSlices size) := by
  have ends := sliceLoop_ensureSymbolSlices controller size
  refine ⟨fun other => ⟨fun loop => ?_, fun same => same ▸ ends⟩, ends.enough, ends.not_fewer⟩
  exact loop.unique ends

/-- The streams of the gateway, after these events. -/
structure Consistent (config : Config) (events : List Event) (controller : Controller core) :
    Prop where
  slices : ∀ size, EnsuresSlices controller size (controller.ensureSymbolSlices size)
  symbolsUpdate : ∀ symbols,
    EnsuresSlices (controller.withSymbols (core.append controller.shared.symbols symbols).1)
      (core.append controller.shared.symbols symbols).2.1 (controller.onSymbolsUpdate symbols).1
  index : ∀ (position : Nat) (session : MarketData),
    controller.marketData[position]? = some session → session.index = position
  /-- The accounts of the configuration are distinct. -/
  orderEntry : controller.orderEntry.map Prod.fst = config.accounts
  dropCopy : controller.dropCopy.map Prod.fst = config.accounts
  owner : ∀ account session,
    controller.dropCopy.lookup account = some (some session) → session.account = account
  present : ∀ account ∈ config.accounts,
    (∃ session, controller.dropCopy.lookup account = some (some session)) ↔
      ∃ token, .tokenUpdate account token ∈ events
  distinct : controller.streamTables.streamIds.length < 65536 →
    controller.streamTables.streamIds.Nodup ∧ 0 ∉ controller.streamTables.streamIds

theorem firstToken_isSome {account : String} : (firstToken account events).isSome ↔
    ∃ token, .tokenUpdate account token ∈ events := by
  rw [firstToken, List.findSome?_isSome_iff]
  constructor
  · rintro ⟨event, member, handed⟩
    cases event with
    | tokenUpdate name token =>
      rw [Event.tokenFor] at handed
      split at handed
      · next same => exact ⟨token, same ▸ member⟩
      · cases handed
    | _ => cases handed
  · rintro ⟨token, member⟩
    exact ⟨_, member, by simp [Event.tokenFor]⟩

/-- The stream at a position has that index. -/
theorem index_of_sound (sound : controller.streamTables.Sound config.accounts) {position : Nat}
    {session : MarketData} (found : controller.marketData[position]? = some session) :
    session.index = position := by
  have listed : (controller.streamTables.marketData.map Prod.snd)[position]? =
      some session.index := by
    simp [streamTables, found, MarketData.identity]
  rw [sound.index, List.getElem?_range, Option.some_inj] at listed
  · exact listed.symm
  · rw [length_streamTables]
    exact (List.getElem?_eq_some_iff.mp found).1

/-- **Streams of a run.**  In every reachable state the stream tables are
consistent, and whatever follows leaves every stream where it is. -/
theorem streams_run
    (ran : (step server settings).run (create core config) events = some (controller, log)) :
    controller.Consistent config events ∧
      ∀ later after log', (step server settings).run controller later = some (after, log') →
        controller.streamTables.Extends after.streamTables := by
  have sound := sound_run ran
  have known := sessions_run ran
  refine ⟨⟨?_, ?_, ?_, sound.orderEntry, map_fst_dropCopy sound, ?_, ?_, sound.distinct⟩, ?_⟩
  · exact ensuresSlices_ensureSymbolSlices controller
  · intro symbols
    exact ensuresSlices_ensureSymbolSlices _ _
  · intro position session found
    exact index_of_sound sound found
  · intro account session found
    have own := known account
    rw [entry, found] at own
    split at own
    · obtain ⟨token, -, same⟩ := Option.map_eq_some_iff.mp (Option.some_inj.mp own).symm
      exact (congrArg Prod.fst same).symm
    · cases own
  · intro account configured
    have own := known account
    rw [if_pos configured, entry, Option.map_eq_some_iff] at own
    obtain ⟨value, found, session⟩ := own
    rw [← firstToken_isSome, ← Option.isSome_map, ← session, Option.isSome_map, found]
    simp [Option.isSome_iff_exists]
  · intro later after log' ran'
    exact (grow_run sound ran').extends

/-- Two accounts, the token of one of them, once more the same token, and symbols
in between. -/
theorem streams_run_twoAccounts :
    ∃ (controller : Controller (Symbols.chunked 1 (by decide)))
      (log : List (Event × List (Source × Output))),
      (step ⟨255, fun _ => false⟩ {}).run (create _ ⟨["A1", "A2"], by decide⟩)
        [.symbolsUpdate ["BTC/USD", "ETH/USD"], .tokenUpdate "A2" "T1",
          .symbolsUpdate ["SOL/USD"], .tokenUpdate "A2" "T1"] = some (controller, log) ∧
      controller.Consistent ⟨["A1", "A2"], by decide⟩
        [.symbolsUpdate ["BTC/USD", "ETH/USD"], .tokenUpdate "A2" "T1",
          .symbolsUpdate ["SOL/USD"], .tokenUpdate "A2" "T1"] := by
  refine ⟨_, _, rfl, ?_⟩
  exact (@streams_run _ ⟨255, fun _ => false⟩ {} ⟨["A1", "A2"], by decide⟩ _ _ _ rfl).1

end Controller

end RoqKraken.Gateway
