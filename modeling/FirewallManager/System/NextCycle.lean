import FirewallManager.Agent.EventStream
import FirewallManager.Agent.SafeMode
import FirewallManager.Worker.Punctual

/-!
# From a cycle to the next one

After a cycle the agent waits for a notification of its event stream, and sleeps for the interval
otherwise, or for thirty seconds after a drift. The sleep is never shorter than a minute, and a
stream that the manager closes notifies as an event does.

`next_cycle_on_time_iff` says when the next cycle comes in time, and `cycles_apart_iff` when it does
not come too soon.
-/

namespace FirewallManager

/-- What the events endpoint does during a wait: it refuses the stream, or the agent reads from it
at the given seconds after the start of the wait. -/
inductive EventsEndpoint where
  | refused
  | opened (items : List (Nat × StreamItem))
  deriving DecidableEq, Repr

namespace EventsEndpoint

variable (lossy : List UInt8 → List Char)

/-- The notifications of a wait. -/
def notifications : EventsEndpoint → List (Nat × Wake)
  | .refused => []
  | .opened items => runEventsStream lossy [] items

/-- The time of the first one. -/
def woken (endpoint : EventsEndpoint) : Option Nat :=
  (endpoint.notifications lossy).head?.map Prod.fst

end EventsEndpoint

/-- When the stream is closed, if that comes before an error. -/
def streamClosedAt : List (Nat × StreamItem) → Option Nat
  | [] => none
  | (_, .chunk _) :: items => streamClosedAt items
  | (secs, .closed) :: _ => some secs
  | (_, .failed) :: _ => none

/-- When the stream is closed cleanly, if it is. -/
def EventsEndpoint.closedAt : EventsEndpoint → Option Nat
  | .refused => none
  | .opened items => streamClosedAt items

/-- The wait that the loop asks for. A cycle that fails counts as one without a drift. -/
def waitSecs (outcome : Except String Bool) (intervalSecs : Nat) : Nat :=
  match outcome with
  | .ok true => 30
  | _ => intervalSecs

section Wait

variable {σ μ : Type} (env : AgentEnv σ) (link : ManagerLink μ) (lossy : List UInt8 → List Char)
  (input : CycleInput) (linked : Linked σ μ) (endpoint : EventsEndpoint)

/-- The interval of the agent after a cycle. -/
def intervalAfter : Nat :=
  (runPullCycle env link input linked).2.agent.intervalSecs

/-- The seconds from a cycle to the next one. -/
def secondsToNext : Nat :=
  waitForNextCycle
    (waitSecs (runPullCycle env link input linked).1 (intervalAfter env link input linked))
    (endpoint.woken lossy)

/-- The cycle finds a local drift. -/
def FoundDrift : Prop :=
  ∃ liveHash, (probe env linked.agent.world).1 = .ok liveHash ∧
    localDrift linked.agent.files liveHash = true

/-- The next cycle starts within the interval, and within thirty seconds after a drift. -/
structure OnTime : Prop where
  interval : secondsToNext env link lossy input linked endpoint ≤
    intervalAfter env link input linked
  drift : FoundDrift env linked → secondsToNext env link lossy input linked endpoint ≤ 30

theorem waitForNextCycle_le_iff {intervalSecs bound : Nat} {woken : Option Nat} :
    waitForNextCycle intervalSecs woken ≤ bound ↔
      (∃ secs ∈ woken, secs ≤ bound) ∨ max intervalSecs 60 ≤ bound := by
  cases woken with
  | none => simp [waitForNextCycle]
  | some secs => simp [waitForNextCycle]

theorem max_waitSecs_le_iff (outcome : Except String Bool) (intervalSecs : Nat) :
    max (waitSecs outcome intervalSecs) 60 ≤ intervalSecs ↔ 60 ≤ intervalSecs := by
  unfold waitSecs
  split <;> omega

/-- The next cycle comes in time exactly if the interval is at least a minute or the stream notifies
within it, and after a drift the stream notifies within thirty seconds. -/
theorem next_cycle_on_time_iff :
    OnTime env link lossy input linked endpoint ↔
      ((∃ secs ∈ endpoint.woken lossy, secs ≤ intervalAfter env link input linked) ∨
          60 ≤ intervalAfter env link input linked) ∧
        (FoundDrift env linked → ∃ secs ∈ endpoint.woken lossy, secs ≤ 30) := by
  have hsleep (intervalSecs : Nat) : ¬ max intervalSecs 60 ≤ 30 := by omega
  constructor
  · rintro ⟨hinterval, hdrift⟩
    rw [secondsToNext, waitForNextCycle_le_iff, max_waitSecs_le_iff] at hinterval
    rw [secondsToNext, waitForNextCycle_le_iff, or_iff_left (hsleep _)] at hdrift
    exact ⟨hinterval, hdrift⟩
  · rintro ⟨hinterval, hdrift⟩
    rw [← max_waitSecs_le_iff (runPullCycle env link input linked).1,
      ← waitForNextCycle_le_iff] at hinterval
    refine ⟨hinterval, fun hfound => ?_⟩
    rw [secondsToNext, waitForNextCycle_le_iff]
    exact Or.inl (hdrift hfound)

theorem runEventsStream_quiet {buf : List Char} {items : List (Nat × StreamItem)}
    (h : ∀ note ∈ runEventsStream lossy buf items, note.2 ≠ .checkIn) :
    (runEventsStream lossy buf items).head?.map Prod.fst = streamClosedAt items := by
  induction items generalizing buf with
  | nil => rfl
  | cons item items ih =>
    obtain ⟨secs, item⟩ := item
    cases item with
    | chunk bytes =>
      rw [runEventsStream] at h ⊢
      cases hframes : (drainFrames (buf ++ lossy bytes)).1.filter
          (parseSseEvent · = some "check-in") with
      | nil =>
        rw [hframes] at h
        exact ih h
      | cons frame frames =>
        rw [hframes] at h
        exact absurd rfl (h (secs, .checkIn) List.mem_cons_self)
    | closed => rfl
    | failed => rfl

/-- Without check-in events two cycles are thirty seconds apart exactly if the manager does not
close the stream before. -/
theorem cycles_apart_iff {endpoint : EventsEndpoint}
    (h : ∀ note ∈ endpoint.notifications lossy, note.2 ≠ .checkIn) :
    30 ≤ secondsToNext env link lossy input linked endpoint ↔
      ∀ secs ∈ endpoint.closedAt, 30 ≤ secs := by
  have hwoken : endpoint.woken lossy = endpoint.closedAt := by
    cases endpoint with
    | refused => rfl
    | opened items => exact runEventsStream_quiet lossy h
  have hlt : 30 ≤ secondsToNext env link lossy input linked endpoint ↔
      ¬ secondsToNext env link lossy input linked endpoint ≤ 29 := by
    omega
  rw [hlt, secondsToNext, waitForNextCycle_le_iff, hwoken, or_iff_left (by omega)]
  simp only [not_exists, not_and, Nat.not_le]
  exact Iff.rfl

end Wait

/-- An agent with an interval, and with a hash of the rules that it last applied. -/
def waitingAgent (intervalSecs : Nat) (expectedHash : Option String) : Linked UfwHost Unit :=
  ⟨{ soundAgent ⟨[], .deny, .allow⟩ ⟨none, none, expectedHash, []⟩ [] with
    intervalSecs := intervalSecs }, ()⟩

/-- Without event stream, an agent with an interval of thirty seconds waits for a minute, and one
that finds a drift waits for its interval if its check-in fails. -/
theorem next_cycle_late :
    secondsToNext soundEnv (fixedLink none) (fun _ => []) ⟨0, "0.1.0", "", 0, none⟩
        (waitingAgent 30 none) .refused = 60 ∧
      intervalAfter soundEnv (fixedLink none) ⟨0, "0.1.0", "", 0, none⟩
        (waitingAgent 30 none) = 30 ∧
      FoundDrift soundEnv (waitingAgent 900 (some "other")) ∧
      secondsToNext soundEnv (fixedLink none) (fun _ => []) ⟨0, "0.1.0", "", 0, none⟩
        (waitingAgent 900 (some "other")) .refused = 900 := by
  refine ⟨by decide +kernel, by decide +kernel, ⟨_, rfl, by decide +kernel⟩, by decide +kernel⟩

/-- A stream that a proxy closes at once starts the next cycle at once. -/
theorem closed_stream_busy :
    secondsToNext soundEnv (fixedLink none) (fun _ => []) ⟨0, "0.1.0", "", 0, none⟩
      (waitingAgent 900 none) (.opened [(0, .closed)]) = 0 := by
  decide +kernel

/-- ASCII text. -/
def asciiChars (bytes : List UInt8) : List Char :=
  bytes.map fun byte => Char.ofNat byte.toNat

/-- A stream with a comment and an event of another kind, which is closed after a minute. -/
def chattyStream : EventsEndpoint :=
  .opened [(5, .chunk (Text.utf8 ": keep-alive\n\n")),
    (20, .chunk (Text.utf8 "event: ping\ndata: 1\n\n")), (60, .closed)]

theorem chatty_stream_apart :
    30 ≤ secondsToNext soundEnv (fixedLink none) asciiChars ⟨0, "0.1.0", "", 0, none⟩
      (waitingAgent 900 none) chattyStream := by
  have hquiet : ∀ note ∈ chattyStream.notifications asciiChars, note.2 ≠ .checkIn := by
    decide +kernel
  refine (cycles_apart_iff soundEnv (fixedLink none) asciiChars _ _ hquiet).mpr ?_
  decide

end FirewallManager
