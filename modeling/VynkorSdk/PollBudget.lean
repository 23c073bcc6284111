import VynkorSdk.Requests

/-!
# Milliseconds for `poll`

A request computes one deadline; `read_frame_full_with_deadline` turns what is
left of it into two `int`s, the argument of `poll` and the budget for the rest
of the frame.  Both are cut by `static_cast<int>` and not clamped, so they are
right as long as what is left fits.
-/

namespace Vynkor

open ByteCodec Procedure

/-- The whole milliseconds from `now` to the deadline. -/
def remainingMs (deadline now : Int) : Int := (deadline - now).tdiv millisecond

/-- What `read_frame_full_with_deadline` passes to `poll`. -/
def pollArgument (deadline now : Int) : Int := toInt32 (remainingMs deadline now)

/-- What it passes to `read_frame_full_with_timeout`. -/
def frameBudget (deadline now : Int) : Int :=
  let remaining := remainingMs deadline now
  let remaining := if remaining < 1 then 1 else remaining
  toInt32 remaining

/-- The calls of `poll` in one wait: the clock reading before each, and its
argument. -/
def pollCalls (deadline : Int) : List Wait → List (Int × Int)
  | [] => []
  | wait :: waits =>
      if wait.now ≥ deadline then
        []
      else
        (wait.now, pollArgument deadline wait.now) ::
          (if wait.poll = .eintr then pollCalls deadline waits else [])

/-- The range of `int`. -/
def clampInt (n : Int) : Int := max (-2 ^ 31) (min n (2 ^ 31 - 1))

/-- **The deadline survives** a call of `poll` made at `now`: its argument is
what is left, so the wait ends with the deadline; and so is the budget for the
frame, taken at some later moment, so that its deadline is ahead of the frame's
first byte. -/
structure Survives (deadline now : Int) : Prop where
  poll_nonneg : 0 ≤ pollArgument deadline now
  poll_clamped : pollArgument deadline now = clampInt (remainingMs deadline now)
  wait_bounded : now + pollArgument deadline now * millisecond ≤ deadline
  budget_pos : ∀ later, now ≤ later → 1 ≤ frameBudget deadline later
  budget_clamped : ∀ later, now ≤ later →
    frameBudget deadline later = clampInt (max 1 (remainingMs deadline later))
  frame_ahead : ∀ later begins, now ≤ later →
    begins < begins + frameBudget deadline later * millisecond

/-! ### Narrowing -/

/-- A count that fits into 32 bits is not wrapped. -/
theorem toInt32_of_fits {n : Int} (hnonneg : 0 ≤ n) (hfits : n ≤ 2 ^ 31 - 1) : toInt32 n = n := by
  simp only [toInt32, Int.bmod_def]
  omega

/-- What does not fit in an `int`, but in 32 bits, comes out negative. -/
theorem toInt32_neg {n : Int} (hlarge : 2 ^ 31 ≤ n) (hword : n < 2 ^ 32) : toInt32 n < 0 := by
  simp only [toInt32, Int.bmod_def]
  omega

/-- A count that fits into `int` is not clamped. -/
theorem clampInt_of_fits {n : Int} (hnonneg : 0 ≤ n) (hfits : n ≤ 2 ^ 31 - 1) : clampInt n = n := by
  simp only [clampInt]
  omega

/-! ### What is left of a deadline -/

variable {deadline now : Int}

/-- Before the deadline the remaining milliseconds are rounded down. -/
theorem remainingMs_eq (h : now ≤ deadline) :
    remainingMs deadline now = (deadline - now) / 1000000 :=
  Int.tdiv_eq_ediv_of_nonneg (Int.sub_nonneg.mpr h)

/-- Before the deadline they are not negative. -/
theorem remainingMs_nonneg (h : now ≤ deadline) : 0 ≤ remainingMs deadline now := by
  rw [remainingMs_eq h]
  omega

/-- Time does not add to what is left. -/
theorem remainingMs_antitone {later : Int} (h : now ≤ later) :
    remainingMs deadline later ≤ remainingMs deadline now :=
  Int.tdiv_le_tdiv (by decide) (by omega)

/-- A wait of that length ends by the deadline. -/
theorem wait_le_deadline (h : now ≤ deadline) :
    now + remainingMs deadline now * millisecond ≤ deadline := by
  rw [remainingMs_eq h, millisecond]
  omega

/-- The budget is at least a millisecond, so it fits where what is left does. -/
theorem frameBudget_of_fits (hfits : remainingMs deadline now ≤ 2 ^ 31 - 1) :
    frameBudget deadline now = max 1 (remainingMs deadline now) := by
  unfold frameBudget
  dsimp only
  split
  · rw [toInt32_of_fits (by omega) (by omega)]
    omega
  · rw [toInt32_of_fits (by omega) hfits]
    omega

/-! ### In `read_frame_full_with_deadline` -/

/-- The reader waits and then reads with this budget. -/
theorem readFrameFullWithDeadline_eq (lib : WireLibs) (key : Option Block32) (deadline : Int)
    (env : FrameEnv) :
    readFrameFullWithDeadline lib key deadline env = (do
      awaitReadable deadline env.waits
      readFrameFullWithTimeout lib key (frameBudget deadline env.waitEnd) env) := rfl

/-- A wait calls `poll` only before its deadline. -/
theorem lt_of_mem_pollCalls {waits : List Wait} {call : Int × Int}
    (h : call ∈ pollCalls deadline waits) :
    call.1 < deadline ∧ call.2 = pollArgument deadline call.1 ∧ ∃ wait ∈ waits,
      wait.now = call.1 := by
  induction waits with
  | nil => cases h
  | cons wait waits ih =>
      rw [pollCalls] at h
      split at h
      · cases h
      rename_i hbefore
      rcases List.mem_cons.mp h with rfl | h
      · exact ⟨Int.not_le.mp hbefore, rfl, wait, by simp, rfl⟩
      · split at h
        · obtain ⟨hlt, harg, w, hw, hnow⟩ := ih h
          exact ⟨hlt, harg, w, List.mem_cons_of_mem _ hw, hnow⟩
        · cases h

/-- A wait that returns has called `poll`. -/
theorem pollCalls_ne_nil {waits : List Wait} {bytes bytes' : Bytes}
    (h : exec (awaitReadable deadline waits) bytes = some (.ok (), bytes')) :
    pollCalls deadline waits ≠ [] := by
  cases waits with
  | nil => simp [awaitReadable] at h
  | cons wait waits =>
      rw [pollCalls]
      by_cases hlate : wait.now ≥ deadline
      · simp [awaitReadable, hlate] at h
      · simp [hlate]

/-! ### Which deadlines survive -/

/-- A wait survives when what remains fits. -/
theorem survives_of_fits (h : now < deadline) (hfits : remainingMs deadline now ≤ 2 ^ 31 - 1) :
    Survives deadline now := by
  have hnonneg := remainingMs_nonneg h.le
  have hpoll : pollArgument deadline now = remainingMs deadline now := toInt32_of_fits hnonneg hfits
  have hbudget : ∀ later, now ≤ later →
      frameBudget deadline later = max 1 (remainingMs deadline later) :=
    fun later hlater => frameBudget_of_fits ((remainingMs_antitone hlater).trans hfits)
  refine ⟨?_, ?_, ?_, ?_, ?_, ?_⟩
  · rw [hpoll]
    exact hnonneg
  · rw [hpoll, clampInt_of_fits hnonneg hfits]
  · rw [hpoll]
    exact wait_le_deadline h.le
  · intro later hlater
    rw [hbudget later hlater]
    exact le_max_left _ _
  · intro later hlater
    have hless : remainingMs deadline later ≤ remainingMs deadline now :=
      remainingMs_antitone hlater
    rw [hbudget later hlater, clampInt_of_fits (by omega) (by omega)]
  · intro later begins hlater
    rw [hbudget later hlater, millisecond]
    omega

/-- The deadline of a request is at most `2^32 - 1` milliseconds ahead. -/
theorem remainingMs_request_lt {timeoutMs : UInt32} {start : Int} (hstart : start ≤ now)
    (h : now ≤ Client.requestDeadline timeoutMs start) :
    remainingMs (Client.requestDeadline timeoutMs start) now < 2 ^ 32 := by
  have hlt := timeoutMs.toNat_lt
  have hword : remainingMs (Client.requestDeadline timeoutMs start) start < 2 ^ 32 := by
    rw [remainingMs_eq (hstart.trans h), Client.requestDeadline, millisecond,
      Client.defaultRequestTimeoutMs]
    split
    · omega
    · omega
  exact (remainingMs_antitone hstart).trans_lt hword

/-- **Which deadlines survive.**  For every timeout of a request and every
moment before its deadline: exactly where what is left fits in an `int`. -/
theorem request_deadline_survives_iff (timeoutMs : UInt32) (start now : Int) (hstart : start ≤ now)
    (hnow : now < Client.requestDeadline timeoutMs start) :
    Survives (Client.requestDeadline timeoutMs start) now ↔
      remainingMs (Client.requestDeadline timeoutMs start) now ≤ 2 ^ 31 - 1 := by
  constructor
  · intro h
    by_contra hlarge
    have hneg := toInt32_neg (by omega) (remainingMs_request_lt hstart hnow.le)
    exact absurd h.poll_nonneg (Int.not_le.mpr hneg)
  · intro hfits
    exact survives_of_fits hnow hfits

/-- A timeout that fits in an `int` survives in every wait of the request: all
calls of `poll`, and the budget with which a frame that begins is read. -/
theorem int_timeouts_survive (lib : WireLibs) (key : Option Block32) {timeoutMs : UInt32}
    {start : Int} {env : FrameEnv}
    (hint : timeoutMs.toNat ≤ 2 ^ 31 - 1) (hafter : ∀ wait ∈ env.waits, start ≤ wait.now)
    (hend : ∀ wait ∈ env.waits, wait.now ≤ env.waitEnd) {bytes bytes' : Bytes}
    (hwait : exec (awaitReadable (Client.requestDeadline timeoutMs start) env.waits) bytes =
      some (.ok (), bytes')) :
    (∀ call ∈ pollCalls (Client.requestDeadline timeoutMs start) env.waits,
      Survives (Client.requestDeadline timeoutMs start) call.1) ∧
    1 ≤ frameBudget (Client.requestDeadline timeoutMs start) env.waitEnd ∧
    exec (readFrameFullWithDeadline lib key (Client.requestDeadline timeoutMs start) env) bytes =
      exec (readFrameFullWithTimeout lib key
        (frameBudget (Client.requestDeadline timeoutMs start) env.waitEnd) env) bytes' := by
  have hcalls : ∀ call ∈ pollCalls (Client.requestDeadline timeoutMs start) env.waits,
      Survives (Client.requestDeadline timeoutMs start) call.1 := by
    intro call hcall
    obtain ⟨hlt, _, wait, hmem, hnow⟩ := lt_of_mem_pollCalls hcall
    have hstart : start ≤ call.1 := hnow ▸ hafter wait hmem
    refine (request_deadline_survives_iff timeoutMs start call.1 hstart hlt).mpr ?_
    refine (remainingMs_antitone hstart).trans ?_
    rw [remainingMs_eq (hstart.trans hlt.le), Client.requestDeadline, millisecond,
      Client.defaultRequestTimeoutMs]
    split
    · omega
    · omega
  refine ⟨hcalls, ?_, ?_⟩
  · obtain ⟨call, hcall⟩ := List.exists_mem_of_ne_nil _ (pollCalls_ne_nil hwait)
    obtain ⟨_, _, wait, hmem, hnow⟩ := lt_of_mem_pollCalls hcall
    exact (hcalls call hcall).budget_pos env.waitEnd (hnow ▸ hend wait hmem)
  · rw [readFrameFullWithDeadline_eq, exec_bind_ok hwait]

/-- The default timeout, a few nanoseconds later. -/
theorem request_deadline_survives_iff_default :
    Survives (Client.requestDeadline 0 0) 5 ∧
      remainingMs (Client.requestDeadline 0 0) 5 ≤ 2 ^ 31 - 1 := by
  have hfits : remainingMs (Client.requestDeadline 0 0) 5 ≤ 2 ^ 31 - 1 := by decide
  exact ⟨(request_deadline_survives_iff 0 0 5 (by decide) (by decide)).mpr hfits, hfits⟩

/-- Everything is there, half a millisecond after the deadline was computed. -/
def promptEnv : FrameEnv where
  waits := [⟨500000, .ready⟩]
  waitEnd := 500000
  firstReads := [.data 0]
  start := 500000
  ticks := List.replicate 44 ⟨500000, .ready, .data 4095⟩
  message := .ok []
  absorbNow := 500000
  absorbSeen := 500000

/-- With a timeout of `2^31 + 1` milliseconds both come out as `INT_MIN` in the
first millisecond: the wait has no bound, and a frame that is there times out
behind its first byte. -/
theorem request_deadline_wraps :
    pollArgument (Client.requestDeadline 2147483649 0) 500000 = -2147483648 ∧
    frameBudget (Client.requestDeadline 2147483649 0) 500000 = -2147483648 ∧
    exec (readFrameFullWithDeadline storingLibs none (Client.requestDeadline 2147483649 0)
      promptEnv) emptyFrame = some (.error .frameReadTimeout, emptyFrame.drop 1) ∧
    ¬ ∀ (timeoutMs : UInt32) (start now : Int), start ≤ now →
      now < Client.requestDeadline timeoutMs start →
      Survives (Client.requestDeadline timeoutMs start) now := by
  refine ⟨by decide, by decide, by rfl, ?_⟩
  intro hall
  have hsurvives := hall 2147483649 0 500000 (by decide) (by decide)
  exact absurd hsurvives.poll_nonneg (by decide)

end Vynkor
