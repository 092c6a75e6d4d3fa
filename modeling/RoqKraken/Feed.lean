import Mathlib.Data.List.Nodup

/-!
# Feeds that subscribe incrementally

A feed serves a growing list of topics over a connection that comes and goes.
When the connection comes up all topics are requested; topics announced while it
is up are requested as they come.  A drop forgets what was requested.

`Feed.Sound` is what always holds of such a feed, and `Feed.Once` what holds as
long as a connection comes up at most once before it drops.
-/

universe u

/-- One connection of a feed. -/
structure Feed (τ : Type u) where
  live : Bool := false
  topics : List τ := []
  /-- What was requested since the last drop. -/
  requested : List τ := []
  /-- How often the connection came up since the last drop. -/
  arrivals : Nat := 0

namespace Feed

variable {τ : Type u}

inductive Action (τ : Type u) where
  | drop
  /-- The feed stops being live, what was requested stays requested. -/
  | suspend
  | arrive
  | announce (new : List τ)

def act (feed : Feed τ) : Action τ → Feed τ
  | .drop => { feed with live := false, requested := [], arrivals := 0 }
  | .suspend => { feed with live := false }
  | .arrive =>
    { feed with
      live := true
      requested := feed.requested ++ feed.topics
      arrivals := feed.arrivals + 1 }
  | .announce new =>
    { feed with
      topics := feed.topics ++ new
      requested := if feed.live then feed.requested ++ new else feed.requested }

@[simp] theorem act_announce_nil (feed : Feed τ) : feed.act (.announce []) = feed := by
  simp [act]

/-- A live feed has requested all of its topics, and no feed more than those. -/
structure Sound (feed : Feed τ) : Prop where
  complete : feed.live = true → ∀ topic ∈ feed.topics, topic ∈ feed.requested
  own : ∀ topic ∈ feed.requested, topic ∈ feed.topics

theorem Sound.mem_requested_iff {feed : Feed τ} (sound : feed.Sound) (live : feed.live = true)
    {topic : τ} : topic ∈ feed.requested ↔ topic ∈ feed.topics :=
  ⟨sound.own topic, sound.complete live topic⟩

theorem Sound.act {feed : Feed τ} (sound : feed.Sound) (action : Action τ) :
    (feed.act action).Sound := by
  cases action with
  | drop => exact ⟨nofun, nofun⟩
  | suspend => exact ⟨nofun, sound.own⟩
  | arrive =>
    refine ⟨fun _ topic member => List.mem_append_right _ member, fun topic member => ?_⟩
    rcases List.mem_append.mp member with before | now
    · exact sound.own topic before
    · exact now
  | announce new =>
    constructor
    · intro live topic member
      have live : feed.live = true := live
      simp only [Feed.act, live, if_true, List.mem_append] at member ⊢
      exact member.imp_left (sound.complete live topic)
    · intro topic member
      simp only [Feed.act] at member ⊢
      split at member
      · exact List.mem_append.mpr ((List.mem_append.mp member).imp_left (sound.own topic))
      · exact List.mem_append_left _ (sound.own topic member)

/-- Nothing was requested twice, and nothing at all before the feed came up. -/
structure Once (feed : Feed τ) : Prop where
  nodup : feed.requested.Nodup
  down : feed.arrivals = 0 → feed.requested = [] ∧ feed.live = false

/-- While topics do not repeat and the connection comes up at most once, no
topic is requested twice. -/
theorem Once.act {feed : Feed τ} (sound : feed.Sound) (once : feed.Once) (action : Action τ)
    (topics : (feed.act action).topics.Nodup) (arrivals : (feed.act action).arrivals ≤ 1) :
    (feed.act action).Once := by
  cases action with
  | drop => exact ⟨List.nodup_nil, fun _ => ⟨rfl, rfl⟩⟩
  | suspend => exact ⟨once.nodup, fun none => ⟨(once.down none).1, rfl⟩⟩
  | arrive =>
    have none : feed.arrivals = 0 := Nat.le_zero.mp (Nat.le_of_succ_le_succ arrivals)
    refine ⟨?_, nofun⟩
    simpa [Feed.act, (once.down none).1] using topics
  | announce new =>
    have fresh : feed.topics.Nodup ∧ new.Nodup ∧ feed.topics.Disjoint new :=
      List.nodup_append'.mp topics
    constructor
    · simp only [Feed.act]
      split
      · refine List.nodup_append'.mpr ⟨once.nodup, fresh.2.1, ?_⟩
        exact fun topic before now => fresh.2.2 (sound.own topic before) now
      · exact once.nodup
    · intro none
      have down := once.down none
      exact ⟨by simp [Feed.act, down], down.2⟩

end Feed
