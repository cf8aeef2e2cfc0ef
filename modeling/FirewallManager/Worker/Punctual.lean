import FirewallManager.System.ConfigVersion

/-!
# Punctual agents

Three components take their times from the check-in interval of a host. The agent sleeps for the
interval and at least a minute, unless its event stream ends before. The manager holds the stream
for the interval less thirty seconds, and at least thirty seconds. The detector calls a host
degraded after two intervals, without a minimum.

`punctual_healthy_iff` says for which intervals an agent that waits as long as it may is healthy at
every run of the detector.
-/

namespace FirewallManager

/-- The wait of a cycle: the sleep, or the time until the event stream wakes the agent if that is
shorter. -/
def waitForNextCycle (intervalSecs : Nat) (woken : Option Nat) : Nat :=
  let sleep := max intervalSecs 60
  match woken with
  | some secs => min secs sleep
  | none => sleep

/-- The status of a host that the detector finds, for times in microseconds. -/
def detectedStatus (interval : Option Int) (last : Option Int) (now : Int) : HostHealthStatus :=
  staleStatus interval (last.map fun last => (now - last).tdiv 1000000)

/-- A host with the interval is healthy as long as its last check-in is not older than the wait of
its agent, which has cast the interval to `u32`. -/
def HealthyWhileWaiting (interval : Int) (woken : Option Nat) : Prop :=
  ∀ last now : Int,
    now - last ≤ waitForNextCycle (interval % 2 ^ 32).toNat woken * 1000000 →
      detectedStatus (some interval) (some last) now = .healthy

theorem detectedStatus_eq_healthy_iff {interval : Int} (h : InRange interval) (last now : Int) :
    detectedStatus (some interval) (some last) now = .healthy ↔
      (now - last).tdiv 1000000 ≤ interval * 2 := by
  show staleStatus (some interval) (some ((now - last).tdiv 1000000)) = .healthy ↔ _
  rw [h.exact.detector]
  unfold InRange at h
  by_cases hfour : (now - last).tdiv 1000000 > interval * 4
  · rw [if_pos hfour]
    exact iff_of_false (fun heq => by cases heq) (by omega)
  · rw [if_neg hfour]
    by_cases htwo : (now - last).tdiv 1000000 > interval * 2
    · rw [if_pos htwo]
      exact iff_of_false (fun heq => by cases heq) (by omega)
    · rw [if_neg htwo]
      exact iff_of_true rfl (by omega)

theorem healthyWhileWaiting_iff {interval : Int} (h : InRange interval) (woken : Option Nat) :
    HealthyWhileWaiting interval woken ↔
      (waitForNextCycle (interval % 2 ^ 32).toNat woken : Int) ≤ interval * 2 := by
  unfold HealthyWhileWaiting
  simp only [detectedStatus_eq_healthy_iff h]
  constructor
  · intro hall
    have hwait := hall 0 (waitForNextCycle (interval % 2 ^ 32).toNat woken * 1000000) (by omega)
    rw [Int.sub_zero, Int.mul_tdiv_cancel _ (by decide)] at hwait
    exact hwait
  · intro hwait last now hage
    have hle := Int.tdiv_le_tdiv (by decide : (0 : Int) < 1000000) hage
    rw [Int.mul_tdiv_cancel _ (by decide)] at hle
    exact hle.trans hwait

/-- **When a punctual agent is healthy.** For every interval that the settings admit: a host whose
agent sleeps through is healthy at every run of the detector up to the agent's next check-in if and
only if the interval is at least thirty seconds, and one whose agent is woken by the end of its
event stream if and only if it is at least fifteen. -/
theorem punctual_healthy_iff {polling : Json} {interval : Int}
    (h : pollingInterval polling = some interval) :
    (HealthyWhileWaiting interval none ↔ 30 ≤ interval) ∧
      (HealthyWhileWaiting interval (some (eventsHold interval)) ↔ 15 ≤ interval) := by
  have hrange := inRange_pollingInterval h
  have hcast := hrange.cast_u32
  have hhold := hrange.exact.events
  rw [healthyWhileWaiting_iff hrange, healthyWhileWaiting_iff hrange]
  unfold waitForNextCycle InRange at *
  dsimp only
  constructor
  · omega
  · omega

/-- The polling section with an interval. -/
def pollingSection (secs : Int) : Json :=
  .obj [("check_in_interval_secs", .int secs)]

/-- With the default interval an agent may wait as long as it does. -/
theorem default_interval_healthy :
    pollingInterval (pollingSection 900) = some 900 ∧ HealthyWhileWaiting 900 none ∧
      HealthyWhileWaiting 900 (some (eventsHold 900)) := by
  have hadmitted : pollingInterval (pollingSection 900) = some 900 := by decide +kernel
  obtain ⟨hsleep, hhold⟩ := punctual_healthy_iff hadmitted
  exact ⟨hadmitted, hsleep.mpr (by omega), hhold.mpr (by omega)⟩

/-- With an interval of ten seconds the detector finds an agent unreachable that has just slept, and
degraded one that was woken by the end of its event stream. -/
theorem short_interval_unreachable :
    pollingInterval (pollingSection 10) = some 10 ∧
      waitForNextCycle 10 none = 60 ∧
      detectedStatus (some 10) (some 0) (60 * 1000000) = .unreachable ∧
      waitForNextCycle 10 (some (eventsHold 10)) = 30 ∧
      detectedStatus (some 10) (some 0) (30 * 1000000) = .degraded := by
  decide +kernel

end FirewallManager
