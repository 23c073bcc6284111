import VynkorSdk.LoopReplies
import VynkorSdk.Plugin

/-!
# The two receive loops agree

`Plugin::serve` and `run_concurrent_loop` are written independently, with the
branches in another order and other places where exceptions are swallowed.  On
input without `ActionRequest`s they show the same: the replies of `Inbound`,
envelope by envelope, up to the first `PluginShutdown` or the end of input.
-/

namespace Vynkor

open ByteCodec Procedure StepMachine

/-- An inbound envelope, what the callbacks do should it reach them, and what
the clock of either loop shows should it ask. -/
structure Inbound where
  env : Envelope
  onEvent : Except Thrown (Option Envelope) := .ok none
  onMessage : Option Envelope := none
  serveClock : UInt64 := 0
  loopClock : UInt64 := 0

namespace Inbound

def isShutdown (x : Inbound) : Bool :=
  match x.env.payload with
  | some (.pluginShutdown _ _) => true
  | _ => false

/-- What is to be sent for the envelope. -/
def replies (x : Inbound) (clock : UInt64) : List Envelope :=
  match x.env.payload with
  | some (.pluginShutdown _ _) => []
  | some (.ping timestamp) => [{ payload := some (.pong timestamp clock) }]
  | some (.event event) =>
      match x.onEvent with
      | .ok reply => eventAck event :: reply.toList
      | .error _ => []
  | _ => x.onMessage.toList

/-- The callback to be made for it. -/
def calls (x : Inbound) : List Callback :=
  match x.env.payload with
  | some (.pluginShutdown _ _) => []
  | some (.ping _) => []
  | some (.event event) => [.onEvent event]
  | _ => [.onMessage x.env]

/-- A shutdown request calls no callback and sends no reply. -/
theorem silent_of_shutdown {x : Inbound} (h : x.isShutdown = true) (clock : UInt64) :
    x.calls = [] ∧ x.replies clock = [] := by
  grind [isShutdown, calls, replies]

/-- The envelopes that are handled: those before the first shutdown. -/
def handled (xs : List Inbound) : List Inbound := xs.takeWhile (fun x => !x.isShutdown)

/-! ### `Plugin::serve` -/

/-- The round of `serve`, with sends that succeed. -/
def round (x : Inbound) : Round :=
  { received := .ok x.env, pongTime := x.serveClock, onEvent := x.onEvent,
    onMessage := .ok x.onMessage }

/-- The rounds of `serve` on this input, with the disconnect at its end. -/
def rounds (xs : List Inbound) (disconnect : Thrown) : List Round :=
  xs.map round ++ [{ received := .error disconnect }]

/-- Of these envelopes only a shutdown request ends `serve`. -/
theorem round_ending (x : Inbound) :
    x.round.ending = if x.isShutdown then some none else none := by
  obtain ⟨⟨messageId, timestamp, senderId, payload⟩, onEvent, onMessage, _, _⟩ := x
  cases payload with
  | none => cases onMessage <;> rfl
  | some p => cases p <;> first | rfl | (cases onMessage <;> rfl)

/-- Every pong can be written. -/
theorem round_pongError (x : Inbound) : x.round.pongError = none := by
  grind [round, Round.pongError]

/-- What `serve` sends for an envelope, at its own clock. -/
theorem round_sends (x : Inbound) : x.round.sends = x.replies x.serveClock := by
  obtain ⟨⟨messageId, timestamp, senderId, payload⟩, onEvent, onMessage, _, _⟩ := x
  cases payload with
  | none => rfl
  | some p => cases p <;> first | rfl | (cases onEvent <;> rfl)

/-- The callbacks `serve` makes for an envelope. -/
theorem round_calls (x : Inbound) : x.round.calls = x.calls := rfl

/-- **The receive loop of `serve`** on this input. -/
theorem exec_receiveLoop (disconnect : Thrown) : ∀ (xs : List Inbound) (s : ServeState),
    exec (receiveLoop (rounds xs disconnect)) s =
      some (.ok none, { s with
        callbacks := s.callbacks ++ (handled xs).flatMap calls
        sent := s.sent ++ (handled xs).flatMap (fun x => x.replies x.serveClock) }) := by
  intro xs
  induction xs with
  | nil =>
      intro s
      simp [rounds, handled, exec_receiveLoop_cons, Round.ending, Round.advance, Round.calls,
        Round.sends]
  | cons x xs ih =>
      intro s
      rw [show rounds (x :: xs) disconnect = x.round :: rounds xs disconnect from rfl,
        exec_receiveLoop_cons, round_ending, round_pongError]
      cases hshutdown : x.isShutdown with
      | true =>
          obtain ⟨hcalls, hreplies⟩ := silent_of_shutdown hshutdown x.serveClock
          simp [handled, hshutdown, Round.advance, round_calls, round_sends, hcalls, hreplies]
      | false =>
          rw [if_neg (by simp)]
          dsimp only
          rw [ih, Round.advance, round_calls, round_sends]
          simp [handled, hshutdown]

end Inbound

namespace ConcurrentLoop

open Inbound

/-- What the loop received, one entry for each `recv()` that has ended. -/
def received (events : List LoopEvent) : List Received :=
  events.filterMap (fun e =>
    match e with
    | .recv .fragment => none
    | .recv r => some r
    | _ => none)

/-- What the loop does with what it received, one after the other. -/
def dispatchAll : List Received → Proc Thrown ServeState Unit
  | [] => pure ()
  | .envelope env reaction :: rs => do
      dispatch env reaction
      dispatchAll rs
  | _ :: rs => dispatchAll rs

/-- The behaviour of the handler on an envelope, with an ack that is sent. -/
def reactionTo (x : Inbound) : Reaction where
  pongTime := x.loopClock
  onEvent := x.onEvent.toOption
  onMessage := some x.onMessage

/-- What the loop receives on this input. -/
def feed (xs : List Inbound) : List Received :=
  xs.map (fun x => .envelope x.env (reactionTo x)) ++ [.fails]

/-- The callbacks the loop makes itself. -/
def directCalls (env : Envelope) : List Callback :=
  match env.payload with
  | some (.pluginShutdown _ _) => []
  | some (.actionRequest _) => []
  | some (.ping _) => []
  | some (.event event) => [.onEvent event]
  | _ => [.onMessage env]

/-- The envelopes the loop sends itself. -/
def directSends (env : Envelope) (reaction : Reaction) : List Envelope :=
  match env.payload with
  | some (.pluginShutdown _ _) => []
  | some (.actionRequest _) => []
  | _ => directReplies env reaction

/-- The loop machine sends what the loop body sends. -/
theorem handle_outbox (s : LoopState) (env : Envelope) (reaction : Reaction) :
    (s.handle env reaction).outbox =
      s.outbox ++ (directSends env reaction).map (fun env => (none, env)) := by
  obtain ⟨messageId, timestamp, senderId, payload⟩ := env
  cases payload with
  | none => rfl
  | some p =>
      cases p with
      | pluginShutdown reason grace => simp [LoopState.handle, directSends]
      | actionRequest req => simp [LoopState.handle, directSends]
      | _ => rfl

/-- What the loop body does with one envelope. -/
theorem exec_dispatch (env : Envelope) (reaction : Reaction) (s : ServeState) :
    exec (dispatch env reaction) s =
      some (.ok (), { s with
        callbacks := s.callbacks ++ directCalls env
        sent := s.sent ++ directSends env reaction }) := by
  obtain ⟨messageId, timestamp, senderId, payload⟩ := env
  obtain ⟨pongTime, onEvent, ackSent, onMessage⟩ := reaction
  have hmessage : ∀ env : Envelope,
      exec (tryCatch
        (do
          let reply ← call (.onMessage env) (Reaction.outcome onMessage)
          replyBestEffort reply)
        (fun _ => pure ())) s = some (.ok (), { s with
          callbacks := s.callbacks ++ [.onMessage env]
          sent := s.sent ++ directReplies {} ⟨pongTime, onEvent, ackSent, onMessage⟩ }) := by
    intro env
    rcases onMessage with _ | _ | reply <;>
      simp [exec_tryCatch, exec_bind, Reaction.outcome, replyBestEffort, sendBestEffort,
        directReplies, ServeState.record, ServeState.pass]
  cases payload with
  | none => exact hmessage _
  | some p =>
      cases p with
      | pluginShutdown reason grace => simp [dispatch, directCalls, directSends]
      | actionRequest req => simp [dispatch, directCalls, directSends]
      | ping time =>
          simp [dispatch, directCalls, directSends, directReplies, exec_tryCatch, sendBestEffort,
            ServeState.pass]
      | event event =>
          rcases onEvent with _ | _ | reply <;> cases ackSent <;>
            simp [dispatch, directCalls, directSends, directReplies, exec_tryCatch, exec_bind,
              Reaction.outcome, replyBestEffort, sendBestEffort, eventAck, ServeState.record,
              ServeState.pass]
      | _ => exact hmessage _

def Received.calls : Received → List Callback
  | .envelope env _ => directCalls env
  | _ => []

def Received.sends : Received → List Envelope
  | .envelope env reaction => directSends env reaction
  | _ => []

/-- Dispatching a list makes each envelope's callbacks and sends each one's replies, in order. -/
theorem exec_dispatchAll : ∀ (rs : List Received) (s : ServeState),
    exec (dispatchAll rs) s =
      some (.ok (), { s with
        callbacks := s.callbacks ++ rs.flatMap Received.calls
        sent := s.sent ++ rs.flatMap Received.sends }) := by
  intro rs
  induction rs with
  | nil =>
      intro s
      simp [dispatchAll]
  | cons r rs ih =>
      intro s
      cases r with
      | fragment => simpa [dispatchAll, Received.calls, Received.sends] using ih s
      | fails => simpa [dispatchAll, Received.calls, Received.sends] using ih s
      | envelope env reaction =>
          rw [dispatchAll, exec_bind_ok (exec_dispatch env reaction s), ih]
          simp [Received.calls, Received.sends]

/-! ### Runs without requests -/

/-- What ends the loop. -/
def Received.ends : Received → Bool
  | .fragment => false
  | .fails => true
  | .envelope env _ =>
      match env.payload with
      | some (.pluginShutdown _ _) => true
      | _ => false

def Received.IsRequest (r : Received) : Prop :=
  ∃ env reaction req, r = .envelope env reaction ∧ env.payload = some (.actionRequest req)

/-- What the run shows so far: only the loop thread has moved, it has sent what
its body sends for what it received, and it is out of the loop exactly if the
last thing it received ended it. -/
structure Shown (rs : List Received) (s : LoopState) : Prop where
  requests_nil : s.requests = []
  queue_nil : s.queue = []
  outbox_eq : s.outbox = (rs.flatMap Received.sends).map (fun env => (none, env))
  inside : ¬ s.pc.Exited → ∀ r ∈ rs, r.ends = false
  outside : s.pc.Exited → ∃ early last, rs = early ++ [last] ∧ last.ends = true ∧
    ∀ r ∈ early, r.ends = false

/-- One more event adds the envelope it reads, if any. -/
theorem received_snoc (events : List LoopEvent) (e : LoopEvent) :
    received (events ++ [e]) = received events ++ received [e] := by
  simp [received]

/-- An envelope ends the loop if it is a shutdown. -/
theorem handle_exited (s : LoopState) (env : Envelope) (reaction : Reaction) :
    (s.handle env reaction).pc.Exited ↔ (Received.envelope env reaction).ends = true := by
  obtain ⟨messageId, timestamp, senderId, payload⟩ := env
  cases payload with
  | none => simp [LoopState.handle, Pc.Exited, Received.ends]
  | some p => cases p <;> simp [LoopState.handle, Pc.Exited, Received.ends]

/-- A received envelope is one more entry. -/
theorem Shown.envelope {rs : List Received} {s : LoopState} (h : Shown rs s) {again : Bool}
    (hpc : s.pc = .receiving again) {env : Envelope} {reaction : Reaction}
    (hrequest : ¬ (Received.envelope env reaction).IsRequest) :
    Shown (rs ++ [.envelope env reaction]) (s.handle env reaction) := by
  have hinside := h.inside (by simp [hpc, Pc.Exited])
  have hnone : ∀ req, env.payload ≠ some (.actionRequest req) :=
    fun req hreq => hrequest ⟨env, reaction, req, rfl, hreq⟩
  obtain ⟨hrequests, hqueue⟩ := handle_without_request s reaction hnone
  refine ⟨hrequests.trans h.requests_nil, hqueue.trans h.queue_nil, ?_, ?_, ?_⟩
  · rw [handle_outbox, h.outbox_eq]
    simp [Received.sends]
  · intro hstay r hr
    rw [handle_exited] at hstay
    rcases List.mem_append.mp hr with hr | hr
    · exact hinside r hr
    · rw [List.mem_singleton.mp hr]
      simpa using hstay
  · intro hexited
    exact ⟨rs, _, rfl, (handle_exited _ _ _).mp hexited, hinside⟩

/-- Nothing was received, or the receive failed. -/
theorem Shown.other {capacity : Nat} {rs : List Received} {s s' : LoopState} {e : LoopEvent}
    (h : Shown rs s) (hstep : step capacity s e = some s') (hpoll : e ≠ .poll .failed)
    (henv : ∀ env reaction, e ≠ .recv (.envelope env reaction)) :
    Shown (rs ++ received [e]) s' := by
  obtain ⟨hrequests, hqueue, houtbox, hexited⟩ :=
    step_without_requests hstep h.requests_nil h.queue_nil henv
  by_cases hfails : e = .recv .fails
  · subst hfails
    have hstay : ¬ s.pc.Exited := by grind [step, Pc.Exited]
    refine ⟨hrequests, hqueue, ?_, ?_, ?_⟩
    · rw [houtbox, h.outbox_eq]
      simp [received, Received.sends]
    · intro hnot
      exact absurd (hexited.mpr (Or.inr (Or.inr rfl))) hnot
    · intro _
      exact ⟨rs, .fails, rfl, rfl, h.inside hstay⟩
  · have hnone : received [e] = [] := by
      cases e with
      | recv r =>
          cases r with
          | fragment => rfl
          | fails => exact absurd rfl hfails
          | envelope env reaction => exact absurd rfl (henv env reaction)
      | _ => rfl
    have hsame : s'.pc.Exited ↔ s.pc.Exited := by simp [hexited, hpoll, hfails]
    rw [hnone, List.append_nil]
    exact ⟨hrequests, hqueue, houtbox.trans h.outbox_eq, fun hnot => h.inside (hsame.not.mp hnot),
      fun hex => h.outside (hsame.mp hex)⟩

/-- In every run without a failed poll or a request the loop shows what it has
received, and no more. -/
theorem run_shown {capacity : Nat} : ∀ events s, run (step capacity) {} events = some s →
    (∀ e ∈ events, e ≠ .poll .failed) → (∀ r ∈ received events, ¬ r.IsRequest) →
    Shown (received events) s := by
  refine run_induction ?_ ?_
  · intro _ _
    exact ⟨rfl, rfl, rfl, by simp [received], by simp [Pc.Exited]⟩
  · intro events s e s' _ ih hstep hpoll hnone
    rw [received_snoc] at hnone ⊢
    have h := ih (fun e he => hpoll e (List.mem_append_left _ he))
      (fun r hr => hnone r (List.mem_append_left _ hr))
    by_cases henv : ∃ env reaction, e = .recv (.envelope env reaction)
    · obtain ⟨env, reaction, rfl⟩ := henv
      rw [step] at hstep
      split at hstep
      · rename_i again hpc
        cases hstep
        exact h.envelope hpc (hnone _ (by simp [received]))
      · cases hstep
    · exact h.other hstep (hpoll e (by simp)) (fun env reaction he => henv ⟨env, reaction, he⟩)

/-! ### On the same input -/

def feedOf (x : Inbound) : Received := .envelope x.env (reactionTo x)

/-- Only the shutdown request ends the concurrent loop. -/
theorem feedOf_ends (x : Inbound) : (feedOf x).ends = x.isShutdown := rfl

/-- The callbacks the concurrent loop makes for an envelope are those of `serve`. -/
theorem feedOf_calls {x : Inbound} (h : ¬ (feedOf x).IsRequest) : (feedOf x).calls = x.calls := by
  obtain ⟨⟨messageId, timestamp, senderId, payload⟩, onEvent, onMessage, _, loopClock⟩ := x
  cases payload with
  | none => rfl
  | some p =>
      cases p with
      | actionRequest req => exact absurd ⟨_, _, req, rfl, rfl⟩ h
      | _ => rfl

/-- The replies the concurrent loop sends for an envelope are those of `serve`, at its own clock. -/
theorem feedOf_sends {x : Inbound} (h : ¬ (feedOf x).IsRequest) :
    (feedOf x).sends = x.replies x.loopClock := by
  obtain ⟨⟨messageId, timestamp, senderId, payload⟩, onEvent, onMessage, _, loopClock⟩ := x
  cases payload with
  | none => rfl
  | some p =>
      cases p with
      | actionRequest req => exact absurd ⟨_, _, req, rfl, rfl⟩ h
      | event event => cases onEvent <;> rfl
      | _ => rfl

/-- What is handled before the shutdown is the same for both loops. -/
theorem takeWhile_feed (xs : List Inbound) :
    (feed xs).takeWhile (fun r => !r.ends) = (handled xs).map feedOf := by
  induction xs with
  | nil => rfl
  | cons x xs ih =>
      rw [show feed (x :: xs) = feedOf x :: feed xs from rfl, List.takeWhile_cons, feedOf_ends, ih]
      cases hshutdown : x.isShutdown with
      | true => simp [handled, hshutdown]
      | false => simp [handled, hshutdown]

/-- What a loop that has ended received of the input: what came before the
first shutdown, and the shutdown or the disconnect. -/
theorem ended_on_feed {xs : List Inbound} {early : List Received} {last : Received}
    (hfeed : early ++ [last] <+: feed xs) (hlast : last.ends = true)
    (hearly : ∀ r ∈ early, r.ends = false) : early = (handled xs).map feedOf := by
  have htake : (feed xs).takeWhile (fun r => !r.ends) = early := by
    obtain ⟨rest, hrest⟩ := hfeed
    rw [← hrest, List.append_assoc, List.takeWhile_append_of_pos (by simpa using hearly)]
    simp [hlast]
  rw [← htake, takeWhile_feed]

/-- What ends the loop makes it send nothing and call nobody. -/
theorem Received.silent_of_ends {r : Received} (h : r.ends = true) :
    r.calls = [] ∧ r.sends = [] := by
  cases r with
  | fragment => cases h
  | fails => exact ⟨rfl, rfl⟩
  | envelope env reaction => grind [Received.ends, Received.calls, Received.sends, directCalls,
      directSends]

/-- **The concurrent loop** on this input, once it has ended. -/
theorem loop_on_feed {capacity : Nat} {xs : List Inbound}
    (hnone : ∀ x ∈ xs, ¬ (feedOf x).IsRequest) {events : List LoopEvent} {s : LoopState}
    (hrun : run (step capacity) {} events = some s) (hpoll : ∀ e ∈ events, e ≠ .poll .failed)
    (hfeed : received events <+: feed xs) (hexited : s.pc.Exited) :
    s.outbox = ((received events).flatMap Received.sends).map (fun env => (none, env)) ∧
      (received events).flatMap Received.sends =
        (handled xs).flatMap (fun x => x.replies x.loopClock) ∧
      (received events).flatMap Received.calls = (handled xs).flatMap Inbound.calls := by
  have hreceived : ∀ r ∈ received events, ¬ r.IsRequest := by
    intro r hr
    have hmem := hfeed.subset hr
    rcases List.mem_append.mp hmem with hmem | hmem
    · obtain ⟨x, hx, rfl⟩ := List.mem_map.mp hmem
      exact hnone x hx
    · rw [List.mem_singleton.mp hmem]
      rintro ⟨env, reaction, req, hr, _⟩
      cases hr
  have h := run_shown events s hrun hpoll hreceived
  obtain ⟨early, last, hsplit, hlast, hearly⟩ := h.outside hexited
  obtain rfl := ended_on_feed (hsplit ▸ hfeed) hlast hearly
  obtain ⟨hcalls, hsends⟩ := Received.silent_of_ends hlast
  have hhandled : ∀ x ∈ handled xs, ¬ (feedOf x).IsRequest :=
    fun x hx => hnone x ((List.takeWhile_sublist _).subset hx)
  refine ⟨h.outbox_eq, ?_, ?_⟩
  · rw [hsplit, List.flatMap_append, List.flatMap_singleton, hsends, List.append_nil,
      List.flatMap_map]
    apply List.flatMap_congr
    intro x hx
    exact feedOf_sends (hhandled x hx)
  · rw [hsplit, List.flatMap_append, List.flatMap_singleton, hcalls, List.append_nil,
      List.flatMap_map]
    apply List.flatMap_congr
    intro x hx
    exact feedOf_calls (hhandled x hx)

/-- A run in which nothing but the input happens. -/
def plainRun : List Inbound → List LoopEvent
  | [] => [.poll (.ready true), .recv .fails, .join]
  | x :: xs =>
      if x.isShutdown then
        [.poll (.ready true), .recv (feedOf x), .join]
      else
        .poll (.ready true) :: .recv (feedOf x) :: plainRun xs

/-- The plain run reads the feed in order. -/
theorem received_plainRun (xs : List Inbound) : received (plainRun xs) <+: feed xs := by
  induction xs with
  | nil => exact List.prefix_rfl
  | cons x xs ih =>
      have hcons : feed (x :: xs) = feedOf x :: feed xs := rfl
      rw [plainRun, hcons]
      split
      · exact (List.prefix_cons_inj (feedOf x)).mpr List.nil_prefix
      · exact (List.prefix_cons_inj (feedOf x)).mpr ih

/-- Handling an envelope that is neither a request nor a shutdown leads back to the poll. -/
theorem handle_stays {x : Inbound} (hrequest : ¬ (feedOf x).IsRequest)
    (hshutdown : x.isShutdown = false) (s : LoopState) :
    (s.handle x.env (reactionTo x)).pc = .polling ∧
      (s.handle x.env (reactionTo x)).wake = s.wake ∧
      (s.handle x.env (reactionTo x)).requests = s.requests := by
  have hnone : ∀ req, x.env.payload ≠ some (.actionRequest req) :=
    fun req hreq => hrequest ⟨_, _, req, rfl, hreq⟩
  unfold LoopState.handle
  grind [Inbound.isShutdown]

/-- The plain run is a run of the loop, and it returns. -/
theorem run_plainRun {capacity : Nat} (xs : List Inbound) :
    (∀ x ∈ xs, ¬ (feedOf x).IsRequest) →
    ∀ s : LoopState, s.pc = .polling → s.wake = 0 → s.requests = [] →
      ∃ s', run (step capacity) s (plainRun xs) = some s' ∧ s'.pc = .returned := by
  induction xs with
  | nil =>
      intro _ s hpc hwake hrequests
      refine ⟨{ s with pc := .returned }, ?_, rfl⟩
      simp [plainRun, step, hpc, hwake, hrequests]
  | cons x xs ih =>
      intro hnone s hpc hwake hrequests
      have hpoll : step capacity s (.poll (.ready true)) =
          some { s with pc := .receiving false } := by
        simp [step, hpc, hwake]
      have hrecv : step capacity { s with pc := .receiving false } (.recv (feedOf x)) =
          some (({ s with pc := .receiving false } : LoopState).handle x.env (reactionTo x)) := rfl
      rw [plainRun]
      cases hshutdown : x.isShutdown with
      | true =>
          have hjoin : ({ s with pc := .receiving false } : LoopState).handle x.env (reactionTo x) =
              { s with pc := .joining } := by
            unfold LoopState.handle
            grind [Inbound.isShutdown]
          refine ⟨{ s with pc := .returned }, ?_, rfl⟩
          rw [if_pos rfl, run_cons, hpoll, Option.bind_some, run_cons, hrecv, Option.bind_some,
            hjoin]
          simp [step, hrequests]
      | false =>
          obtain ⟨hpc', hwake', hrequests'⟩ :=
            handle_stays (hnone x (by simp)) hshutdown { s with pc := .receiving false }
          rw [if_neg (by simp), run_cons, hpoll, Option.bind_some, run_cons, hrecv,
            Option.bind_some]
          exact ih (fun y hy => hnone y (List.mem_cons_of_mem _ hy)) _ hpc' (hwake'.trans hwake)
            (hrequests'.trans hrequests)

/-- No poll of the plain run fails. -/
theorem plainRun_polls (xs : List Inbound) : ∀ e ∈ plainRun xs, e ≠ .poll .failed := by
  induction xs with
  | nil => simp [plainRun]
  | cons x xs ih =>
      rw [plainRun]
      split
      · simp
      · simpa using ih

end ConcurrentLoop

/-- `serve` around a loop that ends without a `handler_err`. -/
theorem exec_serve_of_loop {ack : PluginRegisterAck} (hack : ack.accepted = true)
    {rounds : List Round} {s : ServeState}
    (hloop : exec (receiveLoop rounds) { clientSet := true, callbacks := [.onInit] } =
      some (.ok none, s)) :
    exec (serve { registration := .ok ack, rounds := rounds }) {} =
      some (.ok (), (s.record .onShutdown).setClient false) := by
  unfold serve
  rw [exec_bind_ok (exec_modify _ _), exec_bind_ok (exec_settle _ _), hack, if_neg (by simp),
    exec_bind, exec_tryCatch, exec_call]
  exact exec_bind_ok hloop

/-- Equal, or two pongs for the same ping. -/
def SameButClock (a b : Envelope) : Prop :=
  a = b ∨ ∃ timestamp clock clock', a = { payload := some (.pong timestamp clock) } ∧
    b = { payload := some (.pong timestamp clock') }

/-- The replies to an envelope at two clocks differ in the clock only. -/
theorem Inbound.replies_same (x : Inbound) (clock clock' : UInt64) :
    List.Forall₂ SameButClock (x.replies clock) (x.replies clock') := by
  by_cases hping : ∃ timestamp, x.env.payload = some (.ping timestamp)
  · obtain ⟨timestamp, hping⟩ := hping
    unfold replies
    rw [hping]
    exact .cons (Or.inr ⟨timestamp, clock, clock', rfl, rfl⟩) .nil
  · have heq : x.replies clock = x.replies clock' := by
      unfold replies
      grind
    rw [heq]
    exact List.forall₂_same.mpr (fun _ _ => Or.inl rfl)

/-- So do the replies to a whole input. -/
theorem replies_same_flatMap (xs : List Inbound) :
    List.Forall₂ SameButClock (xs.flatMap (fun x => x.replies x.serveClock))
      (xs.flatMap (fun x => x.replies x.loopClock)) := by
  induction xs with
  | nil => exact .nil
  | cons x xs ih =>
      rw [List.flatMap_cons, List.flatMap_cons]
      exact List.rel_append (x.replies_same _ _) ih

open ConcurrentLoop Inbound in
/-- **The two receive loops agree.**  On input without `ActionRequest`s, with
sends that succeed and an `on_message` that returns, `serve` ends and has sent
the replies and made the callbacks of what came before the first shutdown or the
end of input, in order; and whatever the interleaving, a concurrent loop that
has ended on the same input has sent the same but for the clock in its pongs,
and made the same callbacks.  A run that ends there exists. -/
theorem receive_loops_agree (xs : List Inbound)
    (hrequest : ∀ x ∈ xs, ∀ req, x.env.payload ≠ some (.actionRequest req))
    (ack : PluginRegisterAck) (hack : ack.accepted = true) (disconnect : Thrown) :
    ∃ served, exec (serve { registration := .ok ack, rounds := rounds xs disconnect }) {} =
        some (.ok (), served) ∧
      served.sent = (handled xs).flatMap (fun x => x.replies x.serveClock) ∧
      served.callbacks = .onInit :: (handled xs).flatMap calls ++ [.onShutdown] ∧
      (∀ (capacity : Nat) (events : List LoopEvent) (s : LoopState),
        run (step capacity) {} events = some s → (∀ e ∈ events, e ≠ .poll .failed) →
        received events <+: feed xs → s.pc.Exited →
        ∃ t, exec (dispatchAll (received events)) {} = some (.ok (), t) ∧
          s.outbox = t.sent.map (fun env => (none, env)) ∧
          t.sent = (handled xs).flatMap (fun x => x.replies x.loopClock) ∧
          t.callbacks = (handled xs).flatMap calls ∧
          List.Forall₂ SameButClock served.sent t.sent) ∧
      ∀ capacity, ∃ events s, run (step capacity) {} events = some s ∧
        (∀ e ∈ events, e ≠ .poll .failed) ∧ received events <+: feed xs ∧ s.pc = .returned := by
  have hnone : ∀ x ∈ xs, ¬ (feedOf x).IsRequest := by
    rintro x hx ⟨env, reaction, req, heq, hreq⟩
    cases heq
    exact hrequest x hx req hreq
  refine ⟨_, exec_serve_of_loop hack (exec_receiveLoop disconnect xs _), rfl, rfl, ?_, ?_⟩
  · intro capacity events s hrun hpoll hfeed hexited
    obtain ⟨houtbox, hsent, hcalls⟩ := loop_on_feed hnone hrun hpoll hfeed hexited
    refine ⟨_, exec_dispatchAll _ _, houtbox, hsent, hcalls, ?_⟩
    show List.Forall₂ SameButClock _ ((received events).flatMap Received.sends)
    rw [hsent]
    exact replies_same_flatMap (handled xs)
  · intro capacity
    obtain ⟨s, hrun, hpc⟩ : ∃ s', run (step capacity) {} (plainRun xs) = some s' ∧
        s'.pc = .returned := run_plainRun xs hnone {} rfl rfl rfl
    exact ⟨plainRun xs, s, hrun, plainRun_polls xs, received_plainRun xs, hpc⟩

/-- A ping, an event whose handler throws, a message with a reply, a shutdown,
and an event that comes too late. -/
def sampleInput : List Inbound :=
  [{ env := { payload := some (.ping 7) }, serveClock := 1, loopClock := 2 },
    { env := { payload := some (.event { eventId := ascii "e1" }) },
      onEvent := .error (.other none) },
    { env := { payload := some (.eventAck (ascii "e0")) },
      onMessage := some { payload := some (.sessionClose (ascii "a1") []) } },
    { env := { payload := some (.pluginShutdown [] 5) } },
    { env := { payload := some (.event { eventId := ascii "e2" }) } }]

open ConcurrentLoop Inbound in
/-- Both loops on the sample input. -/
theorem receive_loops_agree_sample :
    ∃ served, exec (serve ⟨.ok { accepted := true }, .ok (), rounds sampleInput (.other none)⟩) {} =
        some (.ok (), served) ∧
      served.sent = [{ payload := some (.pong 7 1) },
        { payload := some (.sessionClose (ascii "a1") []) }] ∧
      ∃ events s, run (step 16) {} events = some s ∧ s.pc.Exited ∧
        s.outbox = [(none, { payload := some (.pong 7 2) }),
          (none, { payload := some (.sessionClose (ascii "a1") []) })] := by
  obtain ⟨served, hserve, hsent, _, hloop, hruns⟩ := receive_loops_agree sampleInput
    (by simp [sampleInput]) { accepted := true } rfl (.other none)
  obtain ⟨events, s, hrun, hpoll, hfeed, hpc⟩ := hruns 16
  obtain ⟨t, _, houtbox, ht, _⟩ := hloop 16 events s hrun hpoll hfeed (Or.inr hpc)
  refine ⟨served, hserve, hsent, events, s, hrun, Or.inr hpc, ?_⟩
  rw [houtbox, ht]
  rfl

end Vynkor
