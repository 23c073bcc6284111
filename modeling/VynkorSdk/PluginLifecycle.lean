import VynkorSdk.Plugin

/-!
# The lifecycle of a served plugin

`on_shutdown` is to run exactly once after an accepted registration, whichever
way `serve` ends, and `client_` is to be null again.  The clean-up is written
out on every exit but two: a `register_full` that throws, and a pong whose send
throws inside the loop.  `serve_concurrent` misses it where the loop itself
throws.
-/

namespace Vynkor

open ByteCodec Procedure StepMachine

/-- The registration came back accepted. -/
def accepted (registration : Except Thrown PluginRegisterAck) : Bool :=
  match registration with
  | .ok ack => ack.accepted
  | .error _ => false

/-- How often `on_shutdown` was called. -/
def ServeState.shutdowns (s : ServeState) : Nat := s.callbacks.count .onShutdown

/-- `on_shutdown` has run once if the plugin was registered, and else not. -/
def ShutdownOnce (registration : Except Thrown PluginRegisterAck) (s : ServeState) : Prop :=
  s.shutdowns = if accepted registration then 1 else 0

/-- No pong fails in the rounds of the loop, up to the one that ends it. -/
def PongsSent (rounds : List Round) : Prop :=
  ∀ round ∈ rounds.takeWhile (fun round => round.ending.isNone), round.pongError = none

/-- Setting the client calls no callback. -/
@[simp] theorem shutdowns_setClient (b : Bool) (s : ServeState) :
    (s.setClient b).shutdowns = s.shutdowns := rfl

/-- Whether the client is set is what was set last. -/
@[simp] theorem clientSet_setClient (b : Bool) (s : ServeState) :
    (s.setClient b).clientSet = b := rfl

/-- `on_init` is no shutdown. -/
@[simp] theorem shutdowns_onInit (s : ServeState) :
    (s.record .onInit).shutdowns = s.shutdowns := by
  simp [ServeState.record, ServeState.shutdowns]

/-- `on_shutdown` counts once. -/
@[simp] theorem shutdowns_onShutdown (s : ServeState) :
    (s.record .onShutdown).shutdowns = s.shutdowns + 1 := by
  simp [ServeState.record, ServeState.shutdowns]

/-- No round of the loop calls `on_shutdown`. -/
theorem Round.onShutdown_not_mem_calls (round : Round) : Callback.onShutdown ∉ round.calls := by
  unfold Round.calls
  split
  · simp
  · split <;> simp

/-- A round of the loop leaves the count as it is. -/
@[simp] theorem shutdowns_advance (round : Round) (s : ServeState) :
    (round.advance s).shutdowns = s.shutdowns := by
  simp [Round.advance, ServeState.shutdowns, List.count_append,
    List.count_eq_zero_of_not_mem round.onShutdown_not_mem_calls]

/-- **The receive loop** leaves `client_` and `on_shutdown` alone, and throws
exactly if a pong fails. -/
theorem receiveLoop_lifecycle :
    ∀ (rounds : List Round) (s s' : ServeState) (r : Except Thrown (Option Thrown)),
      exec (receiveLoop rounds) s = some (r, s') →
      s'.clientSet = s.clientSet ∧ s'.shutdowns = s.shutdowns ∧
        ((∃ handlerErr, r = .ok handlerErr) ↔ PongsSent rounds) := by
  intro rounds
  induction rounds with
  | nil =>
      intro s s' r hrun
      cases hrun
  | cons round rounds ih =>
      intro s s' r hrun
      rw [exec_receiveLoop_cons] at hrun
      cases hending : round.ending with
      | some handlerErr =>
          rw [hending] at hrun
          cases hrun
          refine ⟨rfl, shutdowns_advance round s, ?_⟩
          simp [PongsSent, hending]
      | none =>
          rw [hending] at hrun
          cases hpong : round.pongError with
          | some e =>
              rw [hpong] at hrun
              cases hrun
              refine ⟨rfl, shutdowns_advance round s, ?_⟩
              simp [PongsSent, hending, hpong]
          | none =>
              rw [hpong] at hrun
              obtain ⟨hclient, hshutdowns, hok⟩ := ih _ _ _ hrun
              refine ⟨hclient, hshutdowns.trans (shutdowns_advance round s), ?_⟩
              rw [hok]
              simp [PongsSent, hending, hpong]

/-- What `serve` needs for its clean-up: the registration returns, and in the
loop every pong is sent. -/
def Script.CleansUp (script : Script) : Prop :=
  (∃ ack, script.registration = .ok ack) ∧
    (accepted script.registration = true → script.onInit = .ok () → PongsSent script.rounds)

/-- What `serve_concurrent` needs: the loop can start. -/
def ConcurrentScript.CleansUp (script : ConcurrentScript) : Prop :=
  accepted script.registration = true → script.onInit = .ok () →
    script.loop.pipeOpens = true ∧ script.loop.webSocket = false

/-- The last part of `serve`: the loop and what comes behind it. -/
theorem serveLoop_cleansUp_iff {rounds : List Round} {r : Except Thrown Unit} {s₀ s : ServeState}
    (hclient : s₀.clientSet = true) (hnone : s₀.shutdowns = 0)
    (hrun : exec (do
      let handlerErr ← receiveLoop rounds
      call .onShutdown (.ok ())
      modify (.setClient false)
      match handlerErr with
      | some e => throw e
      | none => pure ()) s₀ = some (r, s)) :
    s.shutdowns = 1 ∧ s.clientSet = false ↔ PongsSent rounds := by
  rw [exec_bind] at hrun
  cases hloop : exec (receiveLoop rounds) s₀ with
  | none => rw [hloop] at hrun; cases hrun
  | some out =>
      obtain ⟨outcome, s₁⟩ := out
      obtain ⟨hclient₁, hshutdowns, hok⟩ := receiveLoop_lifecycle _ _ _ _ hloop
      rw [hloop] at hrun
      rw [← hok]
      cases outcome with
      | error e =>
          -- A pong was not sent: nothing behind the loop runs.
          cases hrun
          simp [hclient₁, hclient]
      | ok handlerErr =>
          have hend : s = (s₁.record .onShutdown).setClient false := by
            cases handlerErr with
            | none => cases hrun; rfl
            | some e => cases hrun; rfl
          rw [hend]
          simp [hshutdowns, hnone]

/-- **`serve` cleans up** exactly when its script does. -/
theorem serve_cleansUp_iff {script : Script} {r : Except Thrown Unit} {s : ServeState}
    (hrun : exec (serve script) {} = some (r, s)) :
    ShutdownOnce script.registration s ∧ s.clientSet = false ↔ script.CleansUp := by
  unfold serve at hrun
  rw [exec_bind_ok (exec_modify _ _), exec_bind, exec_settle] at hrun
  unfold ShutdownOnce Script.CleansUp
  cases hregistration : script.registration with
  | error e =>
      -- `register_full` throws: the pointer stays set.
      rw [hregistration] at hrun
      cases hrun
      simp [ServeState.setClient]
  | ok ack =>
      rw [hregistration] at hrun
      dsimp only at hrun
      cases haccepted : ack.accepted with
      | false =>
          rw [haccepted] at hrun
          cases hrun
          simp [accepted, haccepted, ServeState.shutdowns, ServeState.setClient]
      | true =>
          rw [haccepted, if_neg (by simp), exec_bind, exec_tryCatch, exec_call] at hrun
          cases hinit : script.onInit with
          | error e =>
              rw [hinit] at hrun
              cases hrun
              simp [accepted, haccepted, ServeState.setClient, ServeState.shutdowns,
                ServeState.record]
          | ok _ =>
              rw [hinit] at hrun
              have hloop := serveLoop_cleansUp_iff rfl (by rw [shutdowns_onInit]; rfl) hrun
              simpa [accepted, haccepted] using hloop

/-- A loop that has ended changes no record, and has returned exactly if it
could start. -/
theorem runConcurrentLoop_outcome {loop : LoopRun} {r : Except Thrown Unit} {s₀ s : ServeState}
    (hrun : exec (runConcurrentLoop loop) s₀ = some (r, s)) :
    s = s₀ ∧ (r = .ok () ↔ loop.pipeOpens = true ∧ loop.webSocket = false) := by
  unfold runConcurrentLoop at hrun
  cases hpipe : loop.pipeOpens with
  | false =>
      rw [hpipe] at hrun
      cases hrun
      simp
  | true =>
      rw [hpipe, if_neg (by simp)] at hrun
      cases hws : loop.webSocket with
      | true =>
          rw [hws] at hrun
          cases hrun
          simp
      | false =>
          rw [hws, if_neg (by simp)] at hrun
          split at hrun
          · split at hrun
            · cases hrun
              simp
            · cases hrun
          · cases hrun

/-- **So does the concurrent `serve`.** -/
theorem serveConcurrent_cleansUp_iff {script : ConcurrentScript} {r : Except Thrown Unit}
    {s : ServeState} (hrun : exec (serveConcurrent script) {} = some (r, s)) :
    ShutdownOnce script.registration s ↔ script.CleansUp := by
  unfold serveConcurrent at hrun
  rw [exec_bind, exec_settle] at hrun
  unfold ShutdownOnce ConcurrentScript.CleansUp
  cases hregistration : script.registration with
  | error e =>
      rw [hregistration] at hrun
      cases hrun
      simp [accepted, ServeState.shutdowns]
  | ok ack =>
      rw [hregistration] at hrun
      dsimp only at hrun
      cases haccepted : ack.accepted with
      | false =>
          rw [haccepted] at hrun
          cases hrun
          simp [accepted, haccepted, ServeState.shutdowns]
      | true =>
          rw [haccepted, if_neg (by simp), exec_bind, exec_tryCatch, exec_call] at hrun
          cases hinit : script.onInit with
          | error e =>
              rw [hinit] at hrun
              cases hrun
              simp [accepted, haccepted, ServeState.shutdowns, ServeState.record]
          | ok _ =>
              rw [hinit] at hrun
              dsimp only at hrun
              obtain ⟨e, rfl, hthrow⟩ | ⟨_, s₁, hloop, hend⟩ := exec_bind_cases hrun
              · obtain ⟨rfl, hok⟩ := runConcurrentLoop_outcome hthrow
                simpa [accepted, haccepted, ServeState.shutdowns, ServeState.record] using hok
              · obtain ⟨rfl, hok⟩ := runConcurrentLoop_outcome hloop
                cases hend
                simpa [accepted, haccepted, ServeState.shutdowns, ServeState.record] using hok

/-- **The clean-up of a served plugin.**  When `serve` has returned or thrown,
`on_shutdown` has run once if the registration was accepted, and never
otherwise, and `client_` is null, exactly if the registration did not throw and
no pong failed in the loop; `serve_concurrent` calls `on_shutdown` once after an
accepted registration exactly if its loop can start. -/
theorem served_plugin_cleans_up_iff (script : Script) (concurrent : ConcurrentScript)
    (r : Except Thrown Unit) (s : ServeState) :
    (exec (serve script) {} = some (r, s) →
      (ShutdownOnce script.registration s ∧ s.clientSet = false ↔ script.CleansUp)) ∧
    (exec (serveConcurrent concurrent) {} = some (r, s) →
      (ShutdownOnce concurrent.registration s ↔ concurrent.CleansUp)) :=
  ⟨serve_cleansUp_iff, serveConcurrent_cleansUp_iff⟩

def acceptedAck : PluginRegisterAck := { accepted := true }

/-- A ping, and the pong cannot be sent. -/
def pongFailsScript : Script where
  registration := .ok acceptedAck
  rounds := [{ received := .ok { payload := some (.ping 7) },
               firstSend := .error (.sdk (.io (ascii "write() failed"))) }]

/-- The disconnect that makes the pong fail ends `serve` without clean-up. -/
theorem failed_pong_skips_shutdown :
    ¬ ((∀ (script : Script) (r : Except Thrown Unit) (s : ServeState),
      exec (serve script) {} = some (r, s) →
      ShutdownOnce script.registration s ∧ s.clientSet = false) ∧
    ∀ (script : ConcurrentScript) (r : Except Thrown Unit) (s : ServeState),
      exec (serveConcurrent script) {} = some (r, s) → ShutdownOnce script.registration s) := by
  intro hclaim
  have hrun : exec (serve pongFailsScript) {} =
      some (.error (.sdk (.io (ascii "write() failed"))),
        { clientSet := true, callbacks := [.onInit],
          sent := [{ payload := some (.pong 7 0) }] }) := rfl
  have hclient := (hclaim.1 _ _ _ hrun).2
  cases hclient

/-- A ping that is answered, then a shutdown. -/
def cleanScript : Script where
  registration := .ok acceptedAck
  rounds := [{ received := .ok { payload := some (.ping 7) } },
             { received := .ok { payload := some (.pluginShutdown [] 5) } }]

/-- The socket fails at the first poll. -/
def cleanConcurrentScript : ConcurrentScript where
  registration := .ok acceptedAck
  loop := { capacity := 65536, events := [.poll .failed, .join] }

/-- A script of each loop that cleans up. -/
theorem served_plugin_cleans_up_iff_clean :
    (∃ s, exec (serve cleanScript) {} = some (.ok (), s) ∧
      (ShutdownOnce cleanScript.registration s ∧ s.clientSet = false)) ∧
    ∃ s, exec (serveConcurrent cleanConcurrentScript) {} = some (.ok (), s) ∧
      ShutdownOnce cleanConcurrentScript.registration s := by
  have hrun : exec (serve cleanScript) {} =
      some (.ok (), { callbacks := [.onInit, .onShutdown],
                      sent := [{ payload := some (.pong 7 0) }] }) := rfl
  have hconcurrent : exec (serveConcurrent cleanConcurrentScript) {} =
      some (.ok (), { callbacks := [.onInit, .onShutdown] }) := rfl
  have hiff := served_plugin_cleans_up_iff cleanScript cleanConcurrentScript
  refine ⟨⟨_, hrun, ((hiff _ _).1 hrun).mpr ⟨⟨_, rfl⟩, ?_⟩⟩,
    ⟨_, hconcurrent, ((hiff _ _).2 hconcurrent).mpr ?_⟩⟩
  · intro _ _
    unfold PongsSent
    decide
  · intro _ _
    exact ⟨rfl, rfl⟩

end Vynkor
