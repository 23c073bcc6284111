import VynkorSdk.Inbox
import VynkorSdk.LoopReplies
import VynkorSdk.Plugin

/-!
# What ends a receive loop

Both loops take any exception out of `recv()` for a disconnect.  A connection
that stays up can make `recv()` throw all the same: with a compressed payload
that does not decompress, a raw-binary frame, a payload that is no envelope, a
fragment that does not fit.  Such a frame ends either loop, and so does a reply
that `serve` cannot send; nothing else does but the documented reasons.  The
concurrent loop does not get that far on a WebSocket, where `native_handle`
throws.
-/

namespace Vynkor

open ByteCodec KeyedTable Procedure StepMachine Client

/-! ### `Plugin::serve` -/

/-- What the plugin and the transport do, should a frame complete an envelope. -/
structure Handling where
  pongTime : UInt64 := 0
  onEvent : Except Thrown (Option Envelope) := .ok none
  onMessage : Except Thrown (Option Envelope) := .ok none
  firstSend : Except Thrown Unit := .ok ()
  secondSend : Except Thrown Unit := .ok ()

def Handling.round (h : Handling) (received : Except Exn Envelope) : Round where
  received := received.mapError .sdk
  pongTime := h.pongTime
  onEvent := h.onEvent
  onMessage := h.onMessage
  firstSend := h.firstSend
  secondSend := h.secondSend

/-- The rounds of `serve`: one for each `recv()` that ends. -/
def serveRounds (xs : List (Except Exn (Option Envelope) × Handling)) : List Round :=
  xs.filterMap (fun x => (ended x.1).map x.2.round)

namespace Round

/-- The envelope goes to `on_message`. -/
def ToMessage (env : Envelope) : Prop :=
  match env.payload with
  | some (.pluginShutdown _ _) | some (.ping _) | some (.event _) => False
  | _ => True

/-- A shutdown was received, or `on_message` threw. -/
def Documented (round : Round) : Prop :=
  ∃ env, round.received = .ok env ∧
    (ConcurrentLoop.IsShutdown env ∨ ToMessage env ∧ ∃ e, round.onMessage = .error e)

/-- A pong, or the reply of `on_message`, was not sent. -/
def Unsent (round : Round) : Prop :=
  ∃ env e, round.received = .ok env ∧ round.firstSend = .error e ∧
    ((∃ timestamp, env.payload = some (.ping timestamp)) ∨
      ToMessage env ∧ ∃ reply, round.onMessage = .ok (some reply))

/-- The loop goes no further. -/
def Stops (round : Round) : Prop := round.ending.isSome ∨ round.pongError.isSome

/-- **What stops the loop of `serve`.** -/
theorem stops_iff {round : Round} {env : Envelope} (h : round.received = .ok env) :
    round.Stops ↔ round.Documented ∨ round.Unsent := by
  obtain ⟨messageId, timestamp, senderId, payload⟩ := env
  have hdocumented : round.Documented ↔ ConcurrentLoop.IsShutdown ⟨messageId, timestamp, senderId,
      payload⟩ ∨ ToMessage ⟨messageId, timestamp, senderId, payload⟩ ∧
        ∃ e, round.onMessage = .error e := by simp [Documented, h]
  have hunsent : round.Unsent ↔ ∃ e, round.firstSend = .error e ∧
      ((∃ time, payload = some (.ping time)) ∨
        ToMessage ⟨messageId, timestamp, senderId, payload⟩ ∧
          ∃ reply, round.onMessage = .ok (some reply)) := by simp [Unsent, h]
  -- An envelope for `on_message` stops the loop with what `messageError` says.
  have hmessage : round.messageError.isSome ↔ (∃ e, round.onMessage = .error e) ∨
      ∃ e, round.firstSend = .error e ∧ ∃ reply, round.onMessage = .ok (some reply) := by
    unfold messageError
    rcases round.onMessage with e | (_ | reply) <;> cases round.firstSend <;> simp
  rw [hdocumented, hunsent]
  unfold Stops ending pongError
  rw [h]
  cases payload with
  | none => simpa [ToMessage, ConcurrentLoop.IsShutdown] using hmessage
  | some p =>
      cases p with
      | pluginShutdown reason grace => simp [ConcurrentLoop.IsShutdown]
      | ping time => cases round.firstSend <;> simp [ToMessage, ConcurrentLoop.IsShutdown]
      | event event => simp [ToMessage, ConcurrentLoop.IsShutdown]
      | _ => simpa [ToMessage, ConcurrentLoop.IsShutdown] using hmessage

end Round

/-- The loop has ended exactly if a round stopped it. -/
theorem receiveLoop_ended_iff : ∀ (rounds : List Round) (s : ServeState),
    exec (receiveLoop rounds) s ≠ none ↔ ∃ round ∈ rounds, round.Stops := by
  intro rounds
  induction rounds with
  | nil =>
      intro s
      simp [receiveLoop]
  | cons round rounds ih =>
      intro s
      rw [exec_receiveLoop_cons]
      by_cases hstops : round.Stops
      · refine iff_of_true ?_ ⟨round, by simp, hstops⟩
        unfold Round.Stops at hstops
        cases hending : round.ending with
        | some handlerErr => simp
        | none =>
            obtain ⟨e, hpong⟩ := Option.isSome_iff_exists.mp
              (hstops.resolve_left (by simp [hending]))
            simp [hpong]
      · have hgoes : round.ending = none ∧ round.pongError = none := by
          simpa [Round.Stops] using hstops
        rw [hgoes.1, hgoes.2]
        simp [ih, hstops]

/-- `serve` has ended exactly if its loop has. -/
theorem serve_ended_iff {ack : PluginRegisterAck} (hack : ack.accepted = true)
    (rounds : List Round) :
    exec (serve { registration := .ok ack, rounds := rounds }) {} ≠ none ↔
      ∃ round ∈ rounds, round.Stops := by
  rw [← receiveLoop_ended_iff rounds { clientSet := true, callbacks := [.onInit] }]
  unfold serve
  rw [exec_bind_ok (exec_modify _ _), exec_bind_ok (exec_settle _ _), hack, if_neg (by simp),
    exec_bind, exec_tryCatch, exec_call]
  dsimp only
  rw [exec_bind]
  show _ ↔ exec (receiveLoop rounds) ((ServeState.setClient true {}).record .onInit) ≠ none
  cases exec (receiveLoop rounds) ((ServeState.setClient true {}).record .onInit) with
  | none => simp
  | some out =>
      obtain ⟨e | handlerErr, s⟩ := out
      · simp
      · cases handlerErr <;> simp [exec_bind_ok (exec_call _ _ _), exec_bind_ok (exec_modify _ _)]

/-- No frame makes `recv()` throw and no pong or reply is lost, up to the
documented end of the loop. -/
def Undisturbed (proto : ProtoLib) :
    List (Except Exn AbsorbCall × Handling) → ReassemblyTable → Prop
  | [], _ => True
  | (read, h) :: xs, t =>
      DigestibleRead proto read t ∧
        match (ended (outcomeOf proto read t)).map h.round with
        | none => Undisturbed proto xs (tableAfter read t)
        | some round => round.Documented ∨
            (¬ round.Unsent ∧ Undisturbed proto xs (tableAfter read t))

/-- Whenever the loop has stopped, it was for a documented reason. -/
def StopsAsDocumented (rounds : List Round) : Prop :=
  (∃ round ∈ rounds, round.Stops) → ∃ round ∈ rounds, round.Documented

/-- A round in front of ever longer rests. -/
theorem stopsAsDocumented_cons_iff (round : Round) {rests : Nat → List Round}
    (hzero : rests 0 = []) : (∀ n, StopsAsDocumented (round :: rests n)) ↔
      round.Documented ∨ (¬ round.Stops ∧ ∀ n, StopsAsDocumented (rests n)) := by
  by_cases hdocumented : round.Documented
  · exact iff_of_true (fun n _ => ⟨round, by simp, hdocumented⟩) (.inl hdocumented)
  by_cases hstops : round.Stops
  · refine iff_of_false ?_ (by simp [hdocumented, hstops])
    intro hall
    -- Behind this round alone the loop has stopped already.
    obtain ⟨other, hmem, hother⟩ := hall 0 ⟨round, by simp, hstops⟩
    obtain rfl : other = round := by simpa [hzero] using hmem
    exact hdocumented hother
  · simp only [StopsAsDocumented, List.mem_cons, exists_eq_or_imp, hstops, hdocumented, false_or,
      not_false_eq_true, true_and]

/-- The prefixes of a sequence of frames are the empty one and those behind its
first frame. -/
theorem stopsAsDocumented_take_iff {proto : ProtoLib} (read : Except Exn AbsorbCall) (h : Handling)
    (xs : List (Except Exn AbsorbCall × Handling)) (t : ReassemblyTable) :
    (∀ n, StopsAsDocumented (serveRounds (outcomes proto (((read, h) :: xs).take n) t))) ↔
      ∀ n, StopsAsDocumented (((ended (outcomeOf proto read t)).map h.round).toList ++
        serveRounds (outcomes proto (xs.take n) (tableAfter read t))) := by
  have hcons : ∀ n, serveRounds (outcomes proto (((read, h) :: xs).take (n + 1)) t) =
      ((ended (outcomeOf proto read t)).map h.round).toList ++
        serveRounds (outcomes proto (xs.take n) (tableAfter read t)) := by
    intro n
    rw [List.take_succ_cons, outcomes, serveRounds, serveRounds, List.filterMap_cons]
    cases (ended (outcomeOf proto read t)).map h.round <;> rfl
  constructor
  · intro hall n
    exact hcons n ▸ hall (n + 1)
  · intro hall n
    cases n with
    | zero =>
        rintro ⟨round, hmem, _⟩
        cases hmem
    | succ n =>
        rw [hcons]
        exact hall n

/-- **`serve` on a connection that stays up.** -/
theorem serve_stops_iff {proto : ProtoLib} : ∀ (xs : List (Except Exn AbsorbCall × Handling))
    (t : ReassemblyTable), TableInv t →
    ((∀ n, StopsAsDocumented (serveRounds (outcomes proto (xs.take n) t))) ↔
      Undisturbed proto xs t) := by
  intro xs
  induction xs with
  | nil =>
      intro t _
      simp [Undisturbed, StopsAsDocumented, serveRounds, outcomes]
  | cons x xs ih =>
      intro t ht
      obtain ⟨read, h⟩ := x
      have hrest := ih (tableAfter read t) (tableAfter_inv read ht)
      rw [stopsAsDocumented_take_iff, Undisturbed, ← outcomeOf_ok_iff read ht]
      cases houtcome : outcomeOf proto read t with
      | error e =>
          -- The frame makes `recv()` throw: the loop has stopped behind it.
          have hdocumented : ¬ (h.round (.error e)).Documented := by
            rintro ⟨env, hreceived, _⟩
            cases hreceived
          have hstops : (h.round (.error e)).Stops := .inl rfl
          refine iff_of_false ?_ (by simp)
          refine mt (stopsAsDocumented_cons_iff (h.round (.error e)) rfl).mp ?_
          simp [hdocumented, hstops]
      | ok complete =>
          cases complete with
          | none => simpa [ended] using hrest
          | some env =>
              have hstops : (h.round (.ok env)).Stops ↔ _ :=
                Round.stops_iff (show (h.round (.ok env)).received = .ok env from rfl)
              simp only [ended, Option.map_some, Option.toList_some, List.singleton_append,
                Except.ok.injEq, exists_eq', true_and]
              rw [stopsAsDocumented_cons_iff _ rfl, hstops, hrest]
              tauto

/-! ### `run_concurrent_loop` -/

namespace ConcurrentLoop

/-- Everything `recv()` gave the loop, fragments included. -/
def recvs (events : List LoopEvent) : List Received :=
  events.filterMap (fun e =>
    match e with
    | .recv r => some r
    | _ => none)

/-- What a round of `recv()` gives the loop. -/
def receivedOf (x : Except Exn (Option Envelope) × Reaction) : Received :=
  match x.1 with
  | .error _ => .fails
  | .ok none => .fragment
  | .ok (some env) => .envelope env x.2

def leaves (e : LoopEvent) : Bool :=
  match e with
  | .poll .failed => true
  | .recv .fails => true
  | .recv (.envelope env _) =>
      match env.payload with
      | some (.pluginShutdown _ _) => true
      | _ => false
  | _ => false

/-- The test for an event that ends the loop. -/
theorem leaves_iff (e : LoopEvent) : leaves e = true ↔ Leaves e := by
  constructor
  · intro h
    unfold leaves at h
    split at h
    · exact .pollFails
    · exact .recvFails
    · split at h
      · rename_i reason grace hpayload
        exact .shutdown ⟨reason, grace, hpayload⟩ _
      · cases h
    · cases h
  · intro h
    cases h with
    | pollFails => rfl
    | recvFails => rfl
    | @shutdown env hshutdown reaction =>
        obtain ⟨reason, grace, hpayload⟩ := hshutdown
        simp [leaves, hpayload]

/-- The loop thread leaves the loop with an event that takes it out, once. -/
theorem step_leaves {capacity : Nat} {s s' : LoopState} {e : LoopEvent}
    (hstep : step capacity s e = some s') :
    (s.pc.Exited → s'.pc.Exited ∧ leaves e = false) ∧
      (¬ s.pc.Exited → (s'.pc.Exited ↔ leaves e = true)) := by
  revert hstep
  fun_cases step capacity s e <;> grind [Pc.Exited, leaves, LoopState.handle]

/-- A run that has left the loop has one event that ends it; any other has none. -/
theorem run_leaves {capacity : Nat} : ∀ events s, run (step capacity) {} events = some s →
    (s.pc.Exited → events.countP leaves = 1) ∧ (¬ s.pc.Exited → events.countP leaves = 0) := by
  refine run_induction ?_ ?_
  · simp [Pc.Exited]
  · intro events s e s' _ ih hstep
    obtain ⟨hout, hin⟩ := step_leaves hstep
    rw [List.countP_append, List.countP_singleton]
    by_cases hexited : s.pc.Exited
    · obtain ⟨hstays, hnot⟩ := hout hexited
      simp [hstays, hnot, ih.1 hexited]
    · rw [hin hexited, ih.2 hexited]
      cases leaves e <;> simp

/-- The loop has left for a shutdown it received. -/
def LeftAsDocumented (events : List LoopEvent) (s : LoopState) : Prop :=
  s.pc.Exited → ∃ env reaction, Received.envelope env reaction ∈ recvs events ∧ IsShutdown env

/-- The receives of a run are its events. -/
theorem mem_recvs {events : List LoopEvent} {r : Received} :
    r ∈ recvs events ↔ LoopEvent.recv r ∈ events := by
  unfold recvs
  rw [List.mem_filterMap]
  constructor
  · rintro ⟨e, he, heq⟩
    split at heq
    · cases heq
      exact he
    · cases heq
  · intro h
    exact ⟨_, h, rfl⟩

/-- **What takes the loop out**: a shutdown, unless `poll` or `recv` failed. -/
theorem left_as_documented_iff {capacity : Nat} {events : List LoopEvent} {s : LoopState}
    (hrun : run (step capacity) {} events = some s) :
    LeftAsDocumented events s ↔ .poll .failed ∉ events ∧ Received.fails ∉ recvs events := by
  obtain ⟨hout, hin⟩ := run_leaves events s hrun
  rw [mem_recvs]
  have hexited : ∀ e ∈ events, Leaves e → s.pc.Exited := by
    intro e he hleaves
    by_contra hstay
    have hzero := hin hstay
    rw [List.countP_eq_zero] at hzero
    exact hzero e he ((leaves_iff e).mpr hleaves)
  constructor
  · intro hleft
    -- With a shutdown on record as well, two events would have left.
    have honly : ∀ e, Leaves e → (∀ env reaction, e ≠ .recv (.envelope env reaction)) →
        e ∉ events := by
      intro e hleaves hother he
      obtain ⟨env, reaction, hmem, hshutdown⟩ := hleft (hexited e he hleaves)
      rw [mem_recvs] at hmem
      have hone := hout (hexited e he hleaves)
      rw [List.countP_eq_length_filter, List.length_eq_one_iff] at hone
      obtain ⟨a, ha⟩ := hone
      have hfirst : e ∈ events.filter leaves :=
        List.mem_filter.mpr ⟨he, (leaves_iff e).mpr hleaves⟩
      have hsecond : LoopEvent.recv (.envelope env reaction) ∈ events.filter leaves :=
        List.mem_filter.mpr ⟨hmem, (leaves_iff _).mpr (.shutdown hshutdown reaction)⟩
      rw [ha, List.mem_singleton] at hfirst hsecond
      exact hother env reaction (hfirst.trans hsecond.symm)
    exact ⟨honly _ .pollFails (by simp), honly _ .recvFails (by simp)⟩
  · rintro ⟨hpoll, hfails⟩ hexit
    have hone := hout hexit
    obtain ⟨e, he, hleaves⟩ := List.countP_pos_iff.mp (by omega : 0 < events.countP leaves)
    rw [leaves_iff] at hleaves
    cases hleaves with
    | pollFails => exact absurd he hpoll
    | recvFails => exact absurd he hfails
    | @shutdown env hshutdown reaction => exact ⟨env, reaction, mem_recvs.mpr he, hshutdown⟩

end ConcurrentLoop

/-- No frame of these makes `recv()` throw. -/
def AllDigestible {α : Type} (proto : ProtoLib) :
    List (Except Exn AbsorbCall × α) → ReassemblyTable → Prop
  | [], _ => True
  | (read, _) :: xs, t =>
      DigestibleRead proto read t ∧ AllDigestible proto xs (tableAfter read t)

/-- No receive fails exactly when every arrival can be digested. -/
theorem fails_not_mem_iff {proto : ProtoLib} : ∀ (n : Nat)
    (xs : List (Except Exn AbsorbCall × ConcurrentLoop.Reaction)) (t : ReassemblyTable),
      TableInv t →
    (ConcurrentLoop.Received.fails ∉
        ((outcomes proto xs t).map ConcurrentLoop.receivedOf).take n ↔
      AllDigestible proto (xs.take n) t) := by
  intro n
  induction n with
  | zero =>
      intro xs t _
      simp [AllDigestible]
  | succ n ih =>
      intro xs t ht
      rcases xs with _ | ⟨⟨read, reaction⟩, xs⟩
      · simp [outcomes, AllDigestible]
      · rw [List.take_succ_cons, outcomes, List.map_cons, List.take_succ_cons, AllDigestible,
          ← outcomeOf_ok_iff read ht, ← ih xs _ (tableAfter_inv read ht), List.mem_cons, not_or]
        refine and_congr_left (fun _ => ?_)
        rcases outcomeOf proto read t with e | (_ | env) <;> simp [ConcurrentLoop.receivedOf]

/-! ### Both loops on a client -/

/-- The rounds of `serve` on a client, up to the n-th wire frame. -/
def roundsOn (lib : WireLibs) (proto : ProtoLib) (c : Client) (ws : List (WireInput × Handling))
    (n : Nat) : List Round :=
  serveRounds ((arrivals lib proto (ws.map (fun w => (w.1.env, w.2))) c).take n)

/-- What the concurrent loop receives on a client. -/
def feedOn (lib : WireLibs) (proto : ProtoLib) (c : Client)
    (ws : List (WireInput × ConcurrentLoop.Reaction)) : List ConcurrentLoop.Received :=
  (arrivals lib proto (ws.map (fun w => (w.1.env, w.2))) c).map ConcurrentLoop.receivedOf

/-- What the loops find of the frames behind the parser. -/
def readsOn {α : Type} (lib : WireLibs) (c : Client) (ws : List (WireInput × α)) :
    List (Except Exn AbsorbCall × α) :=
  ws.map (fun w => (w.1.read lib c.sessionKey, w.2))

/-- No exception comes out of `run_concurrent_loop`, and if its thread has left the
loop, it was for a shutdown. -/
def ConcurrentEndsAsDocumented (loop : LoopRun) (s : ConcurrentLoop.LoopState) : Prop :=
  (∀ e state, exec (runConcurrentLoop loop) {} ≠ some (.error e, state)) ∧
    ConcurrentLoop.LeftAsDocumented loop.events s

/-- An exception comes out of it before the first poll, or never. -/
theorem runConcurrentLoop_ok_iff (loop : LoopRun) :
    (∀ e state, exec (runConcurrentLoop loop) {} ≠ some (.error e, state)) ↔
      loop.pipeOpens = true ∧ loop.webSocket = false := by
  unfold runConcurrentLoop
  cases loop.pipeOpens with
  | false => simp
  | true =>
      cases loop.webSocket with
      | true => simp
      | false =>
          simp only [Bool.not_true, Bool.false_eq_true, if_false, and_self, iff_true]
          intro e state
          split
          · split <;> simp
          · simp

open ConcurrentLoop in
/-- **What ends a receive loop** on a connection that stays up.  At every frame,
`serve` has ended for a shutdown or an `on_message` that threw, exactly if no
frame made `recv()` throw and no pong or reply was lost before; the concurrent
loop has ended for a shutdown only, exactly if its pipe was opened, the client is
not on a WebSocket, `poll` did not fail and none of the frames it received made
`recv()` throw. -/
theorem receive_loops_end_as_documented_iff (lib : WireLibs) (proto : ProtoLib) (c : Client)
    (htable : TableInv c.reassembly) :
    (∀ (ack : PluginRegisterAck), ack.accepted = true →
      ∀ ws : List (WireInput × Handling), Arriving none (ws.map Prod.fst) c →
      ((∀ n, exec (serve ⟨.ok ack, .ok (), roundsOn lib proto c ws n⟩) {} ≠ none →
          ∃ round ∈ roundsOn lib proto c ws n, round.Documented) ↔
        Undisturbed proto (readsOn lib c ws) c.reassembly)) ∧
    ∀ ws : List (WireInput × Reaction), Arriving none (ws.map Prod.fst) c →
      ∀ (loop : LoopRun) (s : LoopState), loop.webSocket = c.ws.isSome →
        run (step loop.capacity) {} loop.events = some s →
        recvs loop.events <+: feedOn lib proto c ws →
        (ConcurrentEndsAsDocumented loop s ↔ (loop.pipeOpens = true ∧ c.ws.isSome = false) ∧
          .poll .failed ∉ loop.events ∧
          AllDigestible proto ((readsOn lib c ws).take (recvs loop.events).length)
            c.reassembly) := by
  constructor
  · intro ack hack ws hws
    rw [← serve_stops_iff _ _ htable]
    refine forall_congr' (fun n => ?_)
    rw [serve_ended_iff hack, roundsOn, arrivals_arriving ws c hws, outcomes_take]
    rfl
  · intro ws hws loop s htransport hrun hfeed
    have hreads : (feedOn lib proto c ws).take (recvs loop.events).length =
        ((outcomes proto (readsOn lib c ws) c.reassembly).map receivedOf).take
          (recvs loop.events).length := by
      rw [feedOn, arrivals_arriving ws c hws]
      rfl
    rw [ConcurrentEndsAsDocumented, runConcurrentLoop_ok_iff, left_as_documented_iff hrun,
      ← fails_not_mem_iff _ _ _ htable, ← hreads, ← List.prefix_iff_eq_take.mp hfeed, htransport]

/-- A whole frame without payload, with correct CRC and no tag. -/
def emptyWire (flags : UInt16) : WireInput where
  bytes := (buildHeader flags (targetToBytes []) []).val
  env := byteEnv

/-- It comes in whole. -/
theorem emptyWire_arriving {flags : UInt16} (hdelimited : SelfDelimited (emptyWire flags).bytes) :
    Arriving none [emptyWire flags] { fd := some { inbound := (emptyWire flags).bytes } } := by
  have hlen : (emptyWire flags).bytes.length = 44 := (buildHeader flags (targetToBytes []) []).2
  refine .socket rfl rfl [] (by simp [Client.inbound]) ?_
  intro w hw
  rw [List.mem_singleton.mp hw]
  refine ⟨hdelimited, by simp, ?_⟩
  rw [hlen]
  exact byteEnv_steady

open ConcurrentLoop in
/-- The frame comes in on a socket that stays open, `recv()` throws, and either
loop has ended behind it, without a shutdown and without a throw of `on_message`. -/
def EndsTheLoops (flags : UInt16) : Prop :=
  let c : Client := { fd := some { inbound := (emptyWire flags).bytes } }
  let events : List LoopEvent := [.poll (.ready true), .recv .fails]
  Arriving none [emptyWire flags] c ∧
    (∃ e c', exec (Client.recv storingLibs emptyProto [(emptyWire flags).env]) c =
      some (.error e, c')) ∧
    (exec (serve ⟨.ok { accepted := true }, .ok (),
        roundsOn storingLibs emptyProto c [(emptyWire flags, {})] 1⟩) {} ≠ none ∧
      ¬ ∃ round ∈ roundsOn storingLibs emptyProto c [(emptyWire flags, {})] 1,
        round.Documented) ∧
    ∃ s, run (step 16) {} events = some s ∧
      recvs events <+: feedOn storingLibs emptyProto c [(emptyWire flags, {})] ∧
      ¬ LeftAsDocumented events s

open ConcurrentLoop in
/-- A frame that `recv()` throws on ends both. -/
theorem endsTheLoops_of_error {flags : UInt16} (hdelimited : SelfDelimited (emptyWire flags).bytes)
    {e : Exn} (houtcome : outcomeOf emptyProto ((emptyWire flags).read storingLibs none) ∅ =
      .error e) : EndsTheLoops flags := by
  have hincoming := emptyWire_arriving hdelimited
  have harrives : ∀ {α : Type} (a : α), arrivals storingLibs emptyProto
      [((emptyWire flags).env, a)] { fd := some { inbound := (emptyWire flags).bytes } } =
        [(.error e, a)] := by
    intro α a
    rw [← houtcome]
    exact arrivals_arriving [(emptyWire flags, a)] _ hincoming
  refine ⟨hincoming, ?_, ⟨?_, ?_⟩, { pc := .joining }, rfl, ?_, ?_⟩
  · obtain ⟨c', hround, _⟩ :=
      @recvRound_arriving storingLibs emptyProto _ _ _ hincoming
    rw [exec_recv_cons, hround]
    exact ⟨e, c', by rw [show outcomeOf emptyProto _ _ = _ from houtcome]⟩
  · rw [serve_ended_iff rfl]
    exact ⟨Handling.round {} (.error e), by simp [roundsOn, harrives, serveRounds, ended],
      Or.inl rfl⟩
  · rintro ⟨round, hround, env, hreceived, _⟩
    rw [roundsOn, List.map_singleton, harrives] at hround
    obtain rfl := List.mem_singleton.mp hround
    cases hreceived
  · rw [feedOn, List.map_singleton, harrives]
    exact List.prefix_rfl
  · intro hleft
    obtain ⟨env, reaction, hmem, _⟩ := hleft (Or.inl rfl)
    simp [recvs] at hmem

/-- A raw-binary frame without payload ends both loops, and so does one that says
it is compressed. -/
theorem raw_frame_ends_the_loops :
    EndsTheLoops flagRawBinary ∧ EndsTheLoops flagCompressed := by
  have herror : ∀ {o : Except Exn (Option Envelope)}, o.toOption = none → ∃ e, o = .error e := by
    rintro (e | a) h
    · exact ⟨e, rfl⟩
    · cases h
  obtain ⟨e, hraw⟩ : ∃ e, outcomeOf emptyProto ((emptyWire flagRawBinary).read storingLibs none) ∅ =
    .error e := herror (by decide +kernel)
  obtain ⟨e', hcompressed⟩ : ∃ e, outcomeOf emptyProto
    ((emptyWire flagCompressed).read storingLibs none) ∅ = .error e := herror (by decide +kernel)
  exact ⟨endsTheLoops_of_error ⟨by decide +kernel, by decide +kernel, by decide +kernel⟩ hraw,
    endsTheLoops_of_error ⟨by decide +kernel, by decide +kernel, by decide +kernel⟩ hcompressed⟩

open ConcurrentLoop in
/-- An empty envelope goes to `on_message`, which returns: `serve` has not
ended, nor has the concurrent loop. -/
theorem receive_loops_end_as_documented_iff_empty :
    let c : Client := { fd := some { inbound := (emptyWire 0).bytes } }
    (∀ n, exec (serve ⟨.ok { accepted := true }, .ok (),
          roundsOn storingLibs emptyProto c [(emptyWire 0, {})] n⟩) {} ≠ none →
        ∃ round ∈ roundsOn storingLibs emptyProto c [(emptyWire 0, {})] n, round.Documented) ∧
      ConcurrentEndsAsDocumented
        { capacity := 16, events := [.poll (.ready true), .recv (.envelope {} {})] } {} := by
  intro c
  have harriving : Arriving none [emptyWire 0] c :=
    emptyWire_arriving ⟨by decide +kernel, by decide +kernel, by decide +kernel⟩
  have houtcome : outcomeOf emptyProto ((emptyWire 0).read storingLibs none) ∅ = .ok (some {}) := by
    decide +kernel
  have hdigest : DigestibleRead emptyProto ((emptyWire 0).read storingLibs none) ∅ :=
    (outcomeOf_ok_iff _ TableInv.empty).mp ⟨_, houtcome⟩
  obtain ⟨hserve, hconcurrent⟩ :=
    receive_loops_end_as_documented_iff storingLibs emptyProto c TableInv.empty
  constructor
  · refine (hserve { accepted := true } rfl [(emptyWire 0, {})] harriving).mpr ⟨hdigest, ?_⟩
    simp only [show c.sessionKey = none from rfl, show c.reassembly = ∅ from rfl, houtcome]
    refine Or.inr ⟨?_, trivial⟩
    rintro ⟨env, e, _, hsend, _⟩
    cases hsend
  · refine (hconcurrent [(emptyWire 0, {})] harriving _ _ rfl rfl ?_).mpr
      ⟨⟨rfl, rfl⟩, by simp, hdigest, trivial⟩
    rw [feedOn, arrivals_arriving [(emptyWire 0, _)] c harriving, List.map_singleton, outcomes]
    simp only [show c.sessionKey = none from rfl, show c.reassembly = ∅ from rfl, houtcome]
    exact List.prefix_rfl

end Vynkor
