import VynkorSdk.Endpoint

/-!
# Runs of bounded receives

`recv_timeout` after `recv_timeout` on one connection, with the WebSocket
receive loop underneath where there is one.  Calls fail when their deadline
passes and the next call goes on from there.  In a run where every deadline
passes between messages nothing is lost (`bounded_receives_lose_nothing`); one
that passes in the middle of a message breaks the stream on either transport.
-/

namespace Vynkor

open ByteCodec KeyedTable Procedure

namespace Endpoint

open Client

variable {lib : WireLibs} {proto : ProtoLib}

/-! ### What a run returns -/

/-- The exceptions of a deadline that has passed. -/
def isExpiry : Exn → Bool
  | .timeout => true
  | .frameReadTimeout => true
  | _ => false

/-- A receive that failed because its deadline passed. -/
def expired : Except Exn Envelope → Bool
  | .error error => isExpiry error
  | .ok _ => false

variable (proto) in
/-- What receives return on wire frames when no deadline passes. -/
def received (calls : List AbsorbCall) (t : ReassemblyTable) : List (Except Exn Envelope) :=
  (framesOn calls t).map (fun r => r.bind (decodeFrame proto))

/-- The first frame is what `recv()` makes of it. -/
theorem received_cons (call : AbsorbCall) (calls : List AbsorbCall) (t : ReassemblyTable) :
    received proto (call :: calls) t =
      (ended (outcome proto call t)).toList ++ received proto calls (accept call t).2 := by
  rw [received, framesOn, List.map_append, outcome]
  cases (accept call t).1 with
  | error error => rfl
  | ok complete =>
      cases complete with
      | none => rfl
      | some result =>
          have hlast : ended ((decodeFrame proto result).map some) =
              some (decodeFrame proto result) := by
            cases decodeFrame proto result <;> rfl
          dsimp only
          rw [hlast]
          rfl

/-- What two stretches of calls receive, the second on the table the first leaves. -/
theorem received_append (calls calls' : List AbsorbCall) (t : ReassemblyTable) :
    received proto (calls ++ calls') t =
      received proto calls t ++ received proto calls' (tableOn calls t) := by
  rw [received, framesOn_append, List.map_append]
  rfl

/-- A frame that is there is not overdue. -/
theorem accept_not_expiry (call : AbsorbCall) (t : ReassemblyTable) {error : Exn}
    (h : (accept call t).1 = .error error) : isExpiry error = false := by
  rw [accept] at h
  split at h
  · obtain ⟨_, _, hout | ⟨_, _, hout⟩⟩ | ⟨_, _, _, hcases⟩ := absorbFragment_cases call t
    · rw [hout] at h
      cases h
      rfl
    · rw [hout] at h
      cases h
      rfl
    · obtain ⟨_, hout⟩ | ⟨_, _, hout⟩ | ⟨_, _, ⟨_, _, hout⟩ | ⟨_, hout⟩⟩ := hcases
      · rw [hout] at h
        cases h
        rfl
      · rw [hout] at h
        cases h
      · rw [hout] at h
        cases h
      · rw [hout] at h
        cases h
        rfl
  · cases h

/-- Decoding never times out. -/
theorem decodeFrame_not_expired (r : FrameResult) : expired (decodeFrame proto r) = false := by
  unfold decodeFrame
  split
  · rfl
  · split <;> rfl

/-- What comes of wire frames is not an expiry. -/
theorem received_not_expired :
    ∀ (calls : List AbsorbCall) (t : ReassemblyTable), ∀ r ∈ received proto calls t,
      expired r = false := by
  intro calls
  induction calls with
  | nil =>
      intro t r hr
      cases hr
  | cons call calls ih =>
      intro t r hr
      rw [received, framesOn, List.map_append] at hr
      rcases List.mem_append.mp hr with hr | hr
      · cases hacc : (accept call t).1 with
        | error error =>
            rw [hacc] at hr
            obtain rfl : r = .error error := by simpa [ended, Except.bind] using hr
            exact accept_not_expiry call t hacc
        | ok complete =>
            cases complete with
            | none => simp [hacc, ended] at hr
            | some result =>
                rw [hacc] at hr
                obtain rfl : r = decodeFrame proto result := by
                  simpa [ended, Except.bind] using hr
                exact decodeFrame_not_expired result
      · exact ih _ r hr

variable (lib proto) in
/-- The receives took these wire frames and returned what they amount to. -/
structure Taken (packets : List Packet) (links : List LinkEnv) (e : Endpoint)
    (taken : List AbsorbCall) (results : List (Except Exn Envelope)) (e' : Endpoint) : Prop
    extends Took lib packets links e taken e' where
  results_eq : results.filter (fun r => !expired r) = received proto taken e.client.reassembly

/-- Two stretches of calls take consecutive packets. -/
theorem Taken.trans {packets : List Packet} {links links' : List LinkEnv} {e e₁ e' : Endpoint}
    {taken taken' : List AbsorbCall} {results results' : List (Except Exn Envelope)}
    (h : Taken lib proto packets links e taken results e₁)
    (h' : Taken lib proto (packets.drop taken.length) links' e₁ taken' results' e') :
    Taken lib proto packets (links ++ links') e (taken ++ taken') (results ++ results') e' where
  toTook := h.toTook.trans h'.toTook
  results_eq := by
    rw [List.filter_append, h.results_eq, h'.results_eq, h.table, received_append]

variable (proto) in
/-- **One call** loses nothing, and returns if its deadline does not pass. -/
theorem recvTimeout_paced {timeoutMs now : Int} {links : List LinkEnv} {packets : List Packet}
    {e : Endpoint} (hway : OnTheWay lib packets e)
    (hpaced : Paced lib (some (recvDeadline timeoutMs now)) links e) :
    (exec (recvTimeout lib proto timeoutMs now links) e = none ∧
      ∃ taken, TookAll packets links taken ∧ received proto taken e.client.reassembly = []) ∨
    ∃ taken r e', exec (recvTimeout lib proto timeoutMs now links) e = some (r, e') ∧
      Taken lib proto packets links e taken [r] e' ∧
      ((∀ link ∈ links, Punctual (some (recvDeadline timeoutMs now)) link) →
        expired r = false) := by
  obtain ⟨hwaits, taken, hall, hnone⟩ | ⟨taken, r, e', hexec, htook, hends⟩ :=
    recvFrameWith_paced links packets e hway hpaced
  · left
    rw [recvTimeout, exec_bind, hwaits]
    exact ⟨rfl, taken, hall, by rw [received, hnone]; rfl⟩
  right
  have hcall : exec (recvTimeout lib proto timeoutMs now links) e =
      some (r.bind (decodeFrame proto), e') := by
    rw [recvTimeout, exec_bind, hexec]
    cases r <;> rfl
  refine ⟨taken, _, e', hcall, ?_⟩
  obtain ⟨rfl, hnone, hlate⟩ | hone := hends
  · refine ⟨⟨htook, ?_⟩, fun hpunctual => absurd hpunctual hlate⟩
    rw [received, hnone]
    rfl
  · have hreceived : received proto taken e.client.reassembly = [r.bind (decodeFrame proto)] := by
      rw [received, hone]
      rfl
    have hmem : r.bind (decodeFrame proto) ∈ received proto taken e.client.reassembly := by
      rw [hreceived]
      exact List.mem_singleton_self _
    have hfresh := received_not_expired taken e.client.reassembly _ hmem
    refine ⟨⟨htook, ?_⟩, fun _ => hfresh⟩
    rw [hreceived]
    simp [hfresh]

end Endpoint

/-- A `recv_timeout` call and the environment of its rounds. -/
structure BoundedCall where
  timeoutMs : Int
  now : Int
  links : List LinkEnv

namespace BoundedCall

/-- The deadline of the call, exactly. -/
def due (call : BoundedCall) : Int := call.now + call.timeoutMs * millisecond

/-- The deadline as the call computes it. -/
def deadline (call : BoundedCall) : Int := Client.recvDeadline call.timeoutMs call.now

/-- The deadline fits its 64 bits. -/
def Fits (call : BoundedCall) : Prop := -2 ^ 63 ≤ call.due ∧ call.due < 2 ^ 63

/-- A deadline that fits is the exact one. -/
theorem Fits.deadline_eq {call : BoundedCall} (h : call.Fits) : call.deadline = call.due :=
  toInt64_of_fits h.1 h.2

end BoundedCall

/-- A `recv_timeout` call of the client, with the environment of each frame it
tries to read. -/
structure PollCall where
  timeoutMs : Int
  now : Int
  envs : List FrameEnv

/-- The outcomes of one `recv_timeout` of the client after another. -/
def Client.receives (lib : WireLibs) (proto : ProtoLib) :
    List PollCall → Client → Option (List (Except Exn Envelope) × Client)
  | [], c => some ([], c)
  | call :: calls, c => do
      let (r, c) ← exec (recvTimeout lib proto call.timeoutMs call.now call.envs) c
      let (rs, c) ← receives lib proto calls c
      return (r :: rs, c)

namespace Endpoint

open Client

variable (lib : WireLibs) (proto : ProtoLib)

/-- The outcomes of one `recv_timeout` after another. -/
def receives : List BoundedCall → Endpoint → Option (List (Except Exn Envelope) × Endpoint)
  | [], e => some ([], e)
  | call :: calls, e => do
      let (r, e) ← exec (recvTimeout lib proto call.timeoutMs call.now call.links) e
      let (rs, e) ← receives calls e
      return (r :: rs, e)

/-- No call of the run is torn. -/
def UntornRun : List BoundedCall → Endpoint → Prop
  | [], _ => True
  | call :: calls, e =>
      Paced lib (some call.deadline) call.links e ∧
        ∀ r e', exec (recvTimeout lib proto call.timeoutMs call.now call.links) e = some (r, e') →
          UntornRun calls e'

/-- The run is in a call that waits for what has not come: the calls before it
lost nothing, and all that was left when it started holds no whole message. -/
def Starved (calls : List BoundedCall) (packets : List Packet) (e : Endpoint) : Prop :=
  ∃ before call after taken results e₁ last, calls = before ++ call :: after ∧
    receives lib proto before e = some (results, e₁) ∧
    Taken lib proto packets (before.flatMap BoundedCall.links) e taken results e₁ ∧
    TookAll (packets.drop taken.length) call.links last ∧
    received proto last e₁.client.reassembly = []

/-- A run of the endpoint is a run of the client, call by call. -/
theorem receives_client : ∀ (calls : List BoundedCall) (e e' : Endpoint)
    (results : List (Except Exn Envelope)), receives lib proto calls e = some (results, e') →
    ∃ polls : List PollCall,
      polls.map (fun poll => (poll.timeoutMs, poll.now)) =
        calls.map (fun call => (call.timeoutMs, call.now)) ∧
      Client.receives lib proto polls e.client = some (results, e'.client) := by
  intro calls
  induction calls with
  | nil =>
      intro e e' results hrun
      cases hrun
      exact ⟨[], rfl, rfl⟩
  | cons call calls ih =>
      intro e e' results hrun
      rw [receives] at hrun
      cases hexec : exec (recvTimeout lib proto call.timeoutMs call.now call.links) e with
      | none => simp [hexec] at hrun
      | some out =>
          obtain ⟨r, e₁⟩ := out
          cases hrest : receives lib proto calls e₁ with
          | none => simp [hexec, hrest] at hrun
          | some later =>
              obtain ⟨rs, e₂⟩ := later
              obtain ⟨rfl, rfl⟩ : r :: rs = results ∧ e₂ = e' := by
                simpa [hexec, hrest] using hrun
              obtain ⟨envs, hclient⟩ :=
                recvTimeout_client lib proto call.timeoutMs call.now call.links e
              obtain ⟨polls, hpolls, hlater⟩ := ih e₁ e₂ rs hrest
              rw [hexec, Option.map_some] at hclient
              refine ⟨⟨call.timeoutMs, call.now, envs⟩ :: polls, by simp [hpolls], ?_⟩
              rw [Client.receives, ← hclient]
              simp [hlater]

variable {lib proto} in
/-- The run, call by call: it stops in a call that runs out of packets, or it
loses nothing. -/
theorem receives_untorn :
    ∀ (calls : List BoundedCall) (packets : List Packet) (e : Endpoint),
      OnTheWay lib packets e → UntornRun lib proto calls e →
      (receives lib proto calls e = none ∧ Starved lib proto calls packets e) ∨
      ∃ taken results e', receives lib proto calls e = some (results, e') ∧
        Taken lib proto packets (calls.flatMap BoundedCall.links) e taken results e' ∧
        List.Forall₂ (fun call r => call.Fits →
          (∀ link ∈ call.links, Punctual (some call.due) link) → expired r = false)
          calls results := by
  intro calls
  induction calls with
  | nil =>
      intro packets e hway _
      exact .inr ⟨[], [], e, rfl, ⟨.nothing _ rfl hway, rfl⟩, .nil⟩
  | cons call calls ih =>
      intro packets e hway hrun
      obtain ⟨hpaced, hnext⟩ := hrun
      obtain ⟨hwaits, last, hall, hnone⟩ | ⟨taken, r, e₁, hexec, htaken, hpunctual⟩ :=
        recvTimeout_paced proto hway hpaced
      · refine .inl ⟨?_, [], call, calls, [], [], e, last, rfl, rfl, ⟨.nothing _ rfl hway, rfl⟩,
          hall, hnone⟩
        rw [receives, hwaits]
        rfl
      have hfirst : call.Fits → (∀ link ∈ call.links, Punctual (some call.due) link) →
          expired r = false := by
        intro hfits hlinks
        rw [← hfits.deadline_eq] at hlinks
        exact hpunctual hlinks
      obtain ⟨hwaits, before, later, after, taken', results, e₂, last, rfl, hrest, htaken', hall,
          hnone⟩ | ⟨taken', results, e', hrest, htaken', hall⟩ :=
        ih (packets.drop taken.length) e₁ htaken.left (hnext r e₁ hexec)
      · left
        refine ⟨?_, call :: before, later, after, taken ++ taken', r :: results, e₂, last, rfl, ?_,
          ?_, ?_, hnone⟩
        · rw [receives, hexec]
          simp [hwaits]
        · rw [receives, hexec]
          simp [hrest]
        · rw [List.flatMap_cons]
          exact htaken.trans htaken'
        · rw [List.length_append, ← List.drop_drop]
          exact hall
      · right
        refine ⟨taken ++ taken', r :: results, e', ?_, ?_, .cons hfirst hall⟩
        · rw [receives, hexec]
          simp [hrest]
        · rw [List.flatMap_cons]
          exact htaken.trans htaken'

/-- **No loss.**  A run of bounded receives in which no deadline passes in the
middle of a message either waits in a call for a message that has not come, or
it ends.  Then the calls that did not fail by their deadline returned one
message after the other, each whole; what they have not returned is still on its
way; and a call whose deadline fits its 64 bits and does not pass did not fail by
it. -/
theorem bounded_receives_lose_nothing :
    ∀ (calls : List BoundedCall) (packets : List Packet) (e : Endpoint),
      OnTheWay lib packets e → UntornRun lib proto calls e →
      (receives lib proto calls e = none ∧ Starved lib proto calls packets e) ∨
      ∃ taken results e', receives lib proto calls e = some (results, e') ∧
        Taken lib proto packets (calls.flatMap BoundedCall.links) e taken results e' ∧
        List.Forall₂ (fun call r => call.Fits →
          (∀ link ∈ call.links, Punctual (some call.due) link) → expired r = false)
          calls results ∧
        ∃ polls : List PollCall,
          polls.map (fun poll => (poll.timeoutMs, poll.now)) =
            calls.map (fun call => (call.timeoutMs, call.now)) ∧
          Client.receives lib proto polls e.client = some (results, e'.client) := by
  intro calls packets e hway hrun
  obtain hstops | ⟨taken, results, e', hexec, htaken, hpunctual⟩ :=
    receives_untorn calls packets e hway hrun
  · exact .inl hstops
  · exact .inr ⟨taken, results, e', hexec, htaken, hpunctual,
      receives_client lib proto calls e e' results hexec⟩

/-! ### Torn and untorn messages -/

/-- A wire frame without payload. -/
def emptyPacket : Packet :=
  ⟨emptyFrame, { payload := [], rawHeader := buildHeader 0 (targetToBytes []) [] }⟩

/-- The empty packet parses. -/
theorem emptyPacket_parse :
    parseFrameBytes storingLibs emptyPacket.bytes none = .ok (emptyPacket.frame, 44) := by
  decide +kernel

/-- Two such frames on a socket. -/
def socketEnd : Endpoint := ⟨{ fd := some { inbound := emptyFrame ++ emptyFrame } }, {}⟩

/-- The frame as a message in two fragments. -/
def splitMessage : WsMessage where
  first := .alone ⟨0x02, .inline, emptyFrame.take 22, by decide⟩
  rest := [.alone ⟨0x80, .inline, emptyFrame.drop 22, by decide⟩]
  binary := rfl
  final := by simp [Continues]; decide

/-- `n` such messages on a WebSocket. -/
def webSocketEnd (n : Nat) : Endpoint where
  client := { ws := some {} }
  impl :=
    { inbound := WsImpl.wireBytes ((List.replicate n splitMessage).flatMap WsMessage.frames) }

/-- Two empty packets are on the way to the sample socket. -/
theorem socketEnd_onTheWay : OnTheWay storingLibs [emptyPacket, emptyPacket] socketEnd := by
  refine .socket rfl rfl (by simp [socketEnd, Client.inbound, emptyPacket]) ?_
  intro p hp
  obtain rfl : p = emptyPacket := by simpa using hp
  exact emptyPacket_parse

/-- The empty packets are on the way to the sample WebSocket. -/
theorem webSocketEnd_onTheWay {e : Endpoint} {n : Nat} (hws : e.client.ws.isSome)
    (hkey : e.client.sessionKey = none) (hahead : e.impl.ahead = (webSocketEnd n).impl.ahead) :
    OnTheWay storingLibs (List.replicate n emptyPacket) e := by
  have hcontent : splitMessage.content = emptyPacket.bytes := by decide +kernel
  refine .webSocket hws (List.replicate n splitMessage) [] ?_ ?_ (by simp) ?_ ?_
  · rw [hahead, List.append_nil]
    rfl
  · intro m hm
    obtain rfl := List.eq_of_mem_replicate hm
    exact ⟨by decide +kernel, by decide +kernel⟩
  · rw [List.map_replicate, List.map_replicate, hcontent]
  · intro p hp
    obtain rfl := List.eq_of_mem_replicate hp
    rw [hkey]
    exact ⟨44, emptyPacket_parse⟩

/-- The first byte comes at once, the next not within 1 ms. -/
def stalledEnv : FrameEnv :=
  ⟨[⟨0, .ready⟩], 0, [.data 0], 0, [⟨1000000, .timeout, .eintr⟩], .ok [], 0, 0⟩

/-- Everything comes at once, at 2 ms. -/
def readyEnv : FrameEnv :=
  ⟨[⟨2000000, .ready⟩], 2000000, [.data 0], 2000000, [⟨2000000, .ready, .data 4095⟩], .ok [], 0, 0⟩

/-- A read of up to `k + 1` bytes. -/
def fillAt (now : Int) (k : Nat) : List FillRound := [{ waits := [⟨now, .ready⟩], read := .data k }]

/-- Nothing to read until the deadline. -/
def overdueAt (now : Int) : List FillRound := [{ waits := [⟨now, .timeout⟩], read := .again }]

/-- One byte comes, then the deadline passes. -/
def cutRun : WsImpl.FrameRun :=
  { WsImpl.byteRun 0 with fills := [fillAt 0 0, overdueAt 1000000] }

/-- A fill at its deadline is overdue. -/
theorem overdueAt_overdue (now : Int) : WsImpl.OverdueFill (some now) (overdueAt now) :=
  ⟨now, [], _, [], rfl, rfl, by simp, rfl, [], _, [], rfl, by simp, .inl (Int.le_refl now)⟩

/-- The run that is cut short is calm. -/
theorem cutRun_calm : WsImpl.CalmRun (some 1000000) cutRun where
  fills := by
    intro fill hfill
    rcases List.mem_pair.mp hfill with rfl | rfl
    · refine .inl ⟨?_, ?_, _, List.mem_singleton_self _, 0, rfl⟩
      · intro round hround
        obtain rfl := List.mem_singleton.mp hround
        exact ⟨[], _, [], rfl, by simp, by decide, rfl⟩
      · intro round hround
        obtain rfl := List.mem_singleton.mp hround
        exact .inr ⟨0, rfl⟩
    · exact .inr (overdueAt_overdue _)
  fills_enough := .inr ⟨overdueAt 1000000, by simp [cutRun], overdueAt_overdue _⟩
  rand := rfl
  writes := (@WsImpl.byteRun_steady none 0 rfl).writes
  writes_enough := (@WsImpl.byteRun_steady none 0 rfl).writes_enough

/-- The deadline passes in the middle of the first fragment. -/
def cutCall : BoundedCall := ⟨1, 0, [⟨byteEnv, [cutRun, WsImpl.byteRun 0]⟩]⟩

def wholeCall : BoundedCall :=
  ⟨1, 2000000, [⟨byteEnv, [WsImpl.byteRun 2000000, WsImpl.byteRun 2000000]⟩]⟩

/-- The call that is cut short leaves the message ahead of the next one. -/
theorem exec_cutCall : (exec (recvTimeout storingLibs emptyProto cutCall.timeoutMs cutCall.now
    cutCall.links) (webSocketEnd 1)).map
      (fun out => (out.2.client.ws.isSome, out.2.client.sessionKey, out.2.impl.ahead)) =
        some (true, none, (webSocketEnd 1).impl.ahead) := by
  decide +kernel

/-- The only message of a connection: the first call has a byte of it in the
buffer when its deadline passes, and the second returns it. -/
theorem bounded_receives_lose_nothing_cut :
    ∃ taken r₁ r₂ e', receives storingLibs emptyProto [cutCall, wholeCall] (webSocketEnd 1) =
        some ([r₁, r₂], e') ∧
      Taken storingLibs emptyProto [emptyPacket] (cutCall.links ++ wholeCall.links)
        (webSocketEnd 1) taken [r₁, r₂] e' ∧ expired r₂ = false := by
  have hlead : WsImpl.leadIn (webSocketEnd 1).impl.ahead = 1 := by decide +kernel
  have hspan : WsImpl.messageSpan (webSocketEnd 1).impl.ahead = 2 := by decide +kernel
  have hsteady : SteadyRun (some 1000000) (WsImpl.byteRun 0) := WsImpl.byteRun_steady rfl
  have hsteady' : SteadyRun (some 3000000) (WsImpl.byteRun 2000000) := WsImpl.byteRun_steady rfl
  have hrun : UntornRun storingLibs emptyProto [cutCall, wholeCall] (webSocketEnd 1) := by
    refine ⟨paced_whole (webSocketEnd_onTheWay (n := 1) rfl rfl rfl) rfl
      (.message rfl ?_ ?_ hspan.le), fun r e' hexec => ?_⟩
    · intro run hrun
      rcases List.mem_pair.mp hrun with rfl | rfl
      · exact cutRun_calm
      · exact .of_steady hsteady
    · rw [hlead]
      intro run hrun
      obtain rfl := List.mem_singleton.mp hrun
      exact hsteady
    · have hstate := exec_cutCall
      rw [hexec, Option.map_some, Option.some.injEq, Prod.mk.injEq, Prod.mk.injEq] at hstate
      obtain ⟨hws, hkey, hahead⟩ := hstate
      refine ⟨paced_whole (webSocketEnd_onTheWay (n := 1) hws hkey hahead) rfl
        (.message hws ?_ ?_ ?_), fun _ _ _ => trivial⟩
      · intro run hrun
        obtain rfl : run = WsImpl.byteRun 2000000 := by simpa using hrun
        exact .of_steady hsteady'
      · intro run hrun
        obtain rfl : run = WsImpl.byteRun 2000000 := by simpa using List.mem_of_mem_drop hrun
        exact hsteady'
      · rw [hahead]
        exact hspan.le
  have hends : (receives storingLibs emptyProto [cutCall, wholeCall] (webSocketEnd 1)).isSome := by
    decide +kernel
  obtain ⟨hwaits, _⟩ | ⟨taken, results, e', hexec, htaken, hpunctual, _⟩ :=
    bounded_receives_lose_nothing storingLibs emptyProto [cutCall, wholeCall] [emptyPacket]
      (webSocketEnd 1) (webSocketEnd_onTheWay (n := 1) rfl rfl rfl) hrun
  · rw [hwaits] at hends
    cases hends
  obtain ⟨r₁, _, _, hrest, rfl⟩ := List.forall₂_cons_left_iff.mp hpunctual
  obtain ⟨r₂, _, hsecond, hnil, rfl⟩ := List.forall₂_cons_left_iff.mp hrest
  obtain rfl := List.forall₂_nil_left_iff.mp hnil
  refine ⟨taken, r₁, r₂, e', hexec, htaken, hsecond ⟨by decide, by decide⟩ ?_⟩
  intro link hlink
  obtain rfl := List.mem_singleton.mp hlink
  refine ⟨?_, ?_⟩
  · rintro d - ⟨early, last, late, hsplit, _⟩
    simp [byteEnv] at hsplit
  · intro run hrun
    obtain rfl : run = WsImpl.byteRun 2000000 := by simpa using hrun
    exact hsteady'

/-- **A torn message is lost.**  The deadline of the first call passes after one
byte of a wire frame, or after one of two fragments; the rest comes at once when
the second call is made.  It does not return the message.  Nor does a call whose
timeout is the largest there is: its deadline has passed before it starts. -/
theorem torn_message_is_lost :
    OnTheWay storingLibs [emptyPacket, emptyPacket] socketEnd ∧
      (receives storingLibs emptyProto [⟨1, 0, [⟨stalledEnv, []⟩]⟩, ⟨1, 2000000, [⟨readyEnv, []⟩]⟩]
          socketEnd).map Prod.fst =
        some [.error .frameReadTimeout, .error .frameMagicMismatch] ∧
      OnTheWay storingLibs [emptyPacket, emptyPacket] (webSocketEnd 2) ∧
      (receives storingLibs emptyProto
          [⟨1, 0, [⟨stalledEnv, [⟨[fillAt 0 23], none, []⟩, ⟨[overdueAt 500000], none, []⟩]⟩]⟩,
            ⟨1, 2000000, [⟨readyEnv, [⟨[fillAt 2000000 4095], none, []⟩]⟩]⟩]
          (webSocketEnd 2)).map Prod.fst =
        some [.error .timeout,
          .error (.internal (ascii "websocket: continuation without a started message"))] ∧
      (receives storingLibs emptyProto [⟨9223372036854775807, 2000000, [⟨readyEnv, []⟩]⟩]
          socketEnd).map Prod.fst = some [.error .timeout] ∧
      received emptyProto [⟨0, 0, emptyPacket.frame⟩] ∅ = [.ok {}] :=
  ⟨socketEnd_onTheWay, by decide +kernel, webSocketEnd_onTheWay (n := 2) rfl rfl rfl,
    by decide +kernel, by decide +kernel, by decide +kernel⟩

end Endpoint

end Vynkor
