import VynkorSdk.MixedStream
import VynkorSdk.RequestRuns

/-!
# Acknowledgements and the calls they answer

A run of `publish_event`, `send_command`, `send_action` and
`send_action_streaming` calls on one connection, and the kernel's side of it: a
stream of envelopes in which every answer is marked with the call it belongs to.
Neither acknowledgement is matched by an id: `publish_event` takes the first
`EventPublishAck` that comes, `send_command` the next envelope.  What such a call
returns is its own if no deadline passes in the middle of a message and no
earlier acknowledgement of the kind is still unread when it starts.
-/

namespace Vynkor

open ByteCodec KeyedTable Procedure

namespace Endpoint

open Client

variable {lib : WireLibs} {proto : ProtoLib}

/-! ### What a call has read -/

/-- A wait that returns has received the envelope it waits for last. -/
theorem waited_of_ok {deadline : Int} {isTerminal : Envelope → Bool} {env : Envelope} :
    ∀ (links : List (List LinkEnv)) (e e' : Endpoint),
      exec (waitForResponse lib proto deadline isTerminal links) e = some (.ok env, e') →
      ∃ early, waited lib proto deadline isTerminal links e = early ++ [env] ∧
        (∀ x ∈ early, isTerminal x = false) ∧ isTerminal env = true := by
  intro links
  induction links with
  | nil =>
      intro e e' h
      cases h
  | cons first links ih =>
      intro e e' h
      rw [waitForResponse] at h
      obtain ⟨x, hx, _⟩ | ⟨frame, e₁, hframe, hrest⟩ := exec_bind_cases h
      · cases hx
      rw [waited, hframe]
      dsimp only
      cases hparse : proto.parse frame.payload with
      | none =>
          rw [hparse] at hrest
          cases hrest
      | some resp =>
          rw [hparse] at hrest
          dsimp only at hrest ⊢
          by_cases hterminal : isTerminal resp = true
          · rw [if_pos hterminal] at hrest ⊢
            cases hrest
            exact ⟨[], rfl, by simp, hterminal⟩
          · rw [if_neg hterminal] at hrest ⊢
            obtain ⟨early, hreads, hearly, hlast⟩ := ih e₁ e' hrest
            refine ⟨resp :: early, by rw [hreads]; rfl, ?_, hlast⟩
            intro x hx
            rcases List.mem_cons.mp hx with rfl | hx
            · simpa using hterminal
            · exact hearly x hx

/-- A request that is answered has read up to its answer and no further. -/
theorem exchanged_of_ok {env resp : Envelope} {timeoutMs : UInt32} {isTerminal : Envelope → Bool}
    {rlink : RequestLink} {e e' : Endpoint}
    (h : exec (exchange lib proto env timeoutMs isTerminal rlink) e = some (.ok resp, e')) :
    ∃ early, exchanged lib proto env timeoutMs isTerminal rlink e = early ++ [resp] ∧
      (∀ x ∈ early, isTerminal x = false) ∧ isTerminal resp = true := by
  rw [exchange] at h
  obtain ⟨x, hx, _⟩ | ⟨_, e₁, hsend, hwait⟩ := exec_bind_cases h
  · cases hx
  rw [exchanged, hsend]
  exact waited_of_ok rlink.links e₁ e' hwait

/-- The envelope the reply was taken from; none for the id of a stream. -/
def Reply.CarriedBy (e : Envelope) : Reply → Prop
  | .published ack => e.payload = some (.eventPublishAck ack.eventId ack.status ack.error)
  | .commanded ack =>
      e.payload = some (.kernelCommandAck ack.commandId ack.status ack.dataJson ack.error)
  | .responded response => e.payload = some (.actionResponse response)
  | .started _ => False

/-- `publish_event` returns the first acknowledgement it reads. -/
theorem publishEvent_reads {eventType payloadJson : Bytes} {timeoutMs : UInt32}
    {rlink : RequestLink} {p p' : LinkedProcess} {reply : Reply}
    (h : exec (RequestCall.perform lib proto (.publishEvent eventType payloadJson timeoutMs rlink))
      p = some (.ok reply, p')) :
    (∃ ack, reply = .published ack) ∧
    ∃ early e, RequestCall.reads lib proto (.publishEvent eventType payloadJson timeoutMs rlink) p =
        early ++ [e] ∧ (∀ x ∈ early, publishTerminal x = false) ∧ reply.CarriedBy e := by
  rw [RequestCall.perform] at h
  obtain ⟨_, hx, _⟩ | ⟨ack, p₁, hpublish, hend⟩ := exec_bind_cases h
  · cases hx
  cases hend
  refine ⟨⟨ack, rfl⟩, ?_⟩
  rw [exec_zoom, Option.map_eq_some_iff] at hpublish
  obtain ⟨⟨r, c⟩, hrun, heq⟩ := hpublish
  cases heq
  rw [Endpoint.publishEvent] at hrun
  obtain ⟨_, hx, _⟩ | ⟨e, c₁, hexchange, hsettle⟩ := exec_bind_cases hrun
  · cases hx
  obtain ⟨early, hreads, hearly, hlast⟩ := exchanged_of_ok hexchange
  refine ⟨early, e, hreads, hearly, ?_⟩
  rw [exec_settle, Option.some.injEq, Prod.mk.injEq] at hsettle
  have houtcome := hsettle.1
  unfold publishTerminal at hlast
  unfold publishOutcome at houtcome
  split at hlast
  · rename_i eventId status error hpayload
    rw [hpayload] at houtcome
    cases houtcome
    exact hpayload
  · rename_i error hpayload
    rw [hpayload] at houtcome
    cases houtcome
  · cases hlast

/-- `send_command` returns the one envelope it reads. -/
theorem sendCommand_reads {commandId command paramsJson : Bytes} {link : SendLink}
    {links : List LinkEnv} {p p' : LinkedProcess} {reply : Reply}
    (h : exec (RequestCall.perform lib proto (.sendCommand commandId command paramsJson link links))
      p = some (.ok reply, p')) :
    (∃ ack, reply = .commanded ack) ∧
    ∃ e, RequestCall.reads lib proto (.sendCommand commandId command paramsJson link links) p =
      [e] ∧ reply.CarriedBy e := by
  rw [RequestCall.perform] at h
  obtain ⟨_, hx, _⟩ | ⟨ack, p₁, hcommand, hend⟩ := exec_bind_cases h
  · cases hx
  cases hend
  refine ⟨⟨ack, rfl⟩, ?_⟩
  rw [exec_zoom, Option.map_eq_some_iff] at hcommand
  obtain ⟨⟨r, c⟩, hrun, heq⟩ := hcommand
  cases heq
  rw [Endpoint.sendCommand] at hrun
  obtain ⟨_, hx, _⟩ | ⟨_, c₁, hsend, hrun⟩ := exec_bind_cases hrun
  · cases hx
  obtain ⟨_, hx, _⟩ | ⟨e, c₂, hrecv, hsettle⟩ := exec_bind_cases hrun
  · cases hx
  refine ⟨e, ?_, ?_⟩
  · rw [RequestCall.reads, hsend]
    dsimp only
    rw [hrecv]
  · rw [exec_settle, Option.some.injEq, Prod.mk.injEq] at hsettle
    have houtcome := hsettle.1
    unfold commandOutcome at houtcome
    split at houtcome
    · rename_i hpayload
      cases houtcome
      exact hpayload
    · cases houtcome

/-! ### The kernel's side -/

/-- The envelope answers an action. -/
def AnswersAction (e : Envelope) : Prop :=
  (∃ response, (Reply.responded response).CarriedBy e) ∨
    (∃ actionId reason, e.payload = some (.actionStreamAbort actionId reason)) ∨
      ∃ error, e.payload = some (.error error)

/-- The envelope answers the call; an `Error` answers any. -/
def RequestCall.AnsweredBy (e : Envelope) : RequestCall → Prop
  | .publishEvent _ _ _ _ => (∃ ack, (Reply.published ack).CarriedBy e) ∨
      ∃ error, e.payload = some (.error error)
  | .sendCommand commandId _ _ _ _ => (∃ ack, ack.commandId = commandId ∧
      (Reply.commanded ack).CarriedBy e) ∨ ∃ error, e.payload = some (.error error)
  | .sendAction _ _ _ _ | .sendActionStreaming _ _ _ _ => AnswersAction e

/-- Traffic that answers no call. -/
def IsTraffic (e : Envelope) : Prop :=
  (∃ event, e.payload = some (.event event)) ∨ ∃ timestamp, e.payload = some (.ping timestamp)

/-- Envelopes received before call `i`. -/
def offset (turns : List Turn) (i : Nat) : Nat := ((turns.take i).flatMap Turn.reads).length

/-- What the kernel sends in a run: answers, each marked with the number of its
call, and traffic. -/
abbrev KernelStream := List (Option Nat × Envelope)

/-- The wire frames on their way carry these envelopes: in whatever rounds of the
calls they are taken, they come out one after the other.  So do envelopes in one
frame each (`carries_whole`), and fragment sets that are neither refused nor too
old (`carries_mixed`). -/
def Carries (proto : ProtoLib) (packets : List Packet) (links : List LinkEnv)
    (t : ReassemblyTable) (envelopes : List Envelope) : Prop :=
  ∀ taken : List AbsorbCall,
    taken.map AbsorbCall.frame = (packets.take taken.length).map Packet.frame →
    (taken.map (fun call => (call.now, call.seen))).Sublist
      (links.map (fun link => (link.env.absorbNow, link.env.absorbSeen))) →
    received proto taken t <+: envelopes.map .ok

/-- The kernel answers every request once, in order and not before it was
sent. -/
structure Answering (calls : List RequestCall) (turns : List Turn) (stream : KernelStream) :
    Prop where
  in_order : (stream.filterMap Prod.fst).Pairwise (· < ·)
  answers : ∀ k e call, (some k, e) ∈ stream → calls[k]? = some call → call.AnsweredBy e
  traffic : ∀ e, (none, e) ∈ stream → IsTraffic e
  causal : ∀ j k e, stream[j]? = some (some k, e) → k < calls.length ∧ offset turns k ≤ j

/-- And the calls receive what it sends. -/
structure Heard (calls : List RequestCall) (turns : List Turn) (stream : KernelStream) : Prop
    extends Answering calls turns stream where
  received : turns.flatMap Turn.reads <+: stream.map Prod.snd

/-- The answer to call `k` is still unread when call `i` starts. -/
def Unread (turns : List Turn) (stream : KernelStream) (i k : Nat) (e : Envelope) : Prop :=
  ∃ j, offset turns i ≤ j ∧ stream[j]? = some (some k, e)

/-- The call returned its own answer: for `publish_event` an envelope marked
with it, for `send_command` one with its `command_id`. -/
def OwnAnswer (turns : List Turn) (stream : KernelStream) (i : Nat) (reply : Reply) :
    RequestCall → Prop
  | .publishEvent _ _ _ _ => ∃ j e, offset turns i ≤ j ∧ j < offset turns (i + 1) ∧
      stream[j]? = some (some i, e) ∧ reply.CarriedBy e
  | .sendCommand commandId _ _ _ _ => ∃ ack, reply = .commanded ack ∧ ack.commandId = commandId
  | .sendAction _ _ _ _ | .sendActionStreaming _ _ _ _ => True

/-- No acknowledgement that the call could take for its own is unread: for
`publish_event` one of an earlier call, for `send_command` one with another
`command_id`. -/
def CaughtUp (turns : List Turn) (stream : KernelStream) (i : Nat) : RequestCall → Prop
  | .publishEvent _ _ _ _ => ∀ k < i, ∀ e ack, Unread turns stream i k e →
      ¬ (Reply.published ack).CarriedBy e
  | .sendCommand commandId _ _ _ _ => ∀ k < i, ∀ e ack, Unread turns stream i k e →
      (Reply.commanded ack).CarriedBy e → ack.commandId = commandId
  | .sendAction _ _ _ _ | .sendActionStreaming _ _ _ _ => True

/-! ### Positions in the stream -/

/-- The next turn starts behind what this one reads. -/
theorem offset_succ {turns : List Turn} {i : Nat} {turn : Turn} (h : turns[i]? = some turn) :
    offset turns (i + 1) = offset turns i + turn.reads.length := by
  simp [offset, List.take_add_one, h]

/-- Later turns start later. -/
theorem offset_mono (turns : List Turn) {i j : Nat} (h : i ≤ j) :
    offset turns i ≤ offset turns j := by
  have hsplit : turns.take j = turns.take i ++ (turns.take j).drop i := by
    conv_lhs => rw [← List.take_append_drop i (turns.take j), List.take_take, Nat.min_eq_left h]
  rw [offset, offset, hsplit, List.flatMap_append, List.length_append]
  exact Nat.le_add_right _ _

/-- What a call reads stands in the stream. -/
theorem Heard.read_at {calls : List RequestCall} {turns : List Turn} {stream : KernelStream}
    (h : Heard calls turns stream) {i k : Nat} {turn : Turn} {e : Envelope}
    (hturn : turns[i]? = some turn) (he : turn.reads[k]? = some e) :
    ∃ tag, stream[offset turns i + k]? = some (tag, e) := by
  obtain ⟨rest, hrest⟩ := h.received
  have hsplit : turns = turns.take i ++ turn :: turns.drop (i + 1) := by
    obtain ⟨hlt, rfl⟩ := List.getElem?_eq_some_iff.mp hturn
    simp
  have hflat : turns.flatMap Turn.reads ++ rest = (turns.take i).flatMap Turn.reads ++
      (turn.reads ++ ((turns.drop (i + 1)).flatMap Turn.reads ++ rest)) := by
    conv_lhs => rw [hsplit]
    simp
  have hread : (stream.map Prod.snd)[offset turns i + k]? = some e := by
    obtain ⟨hlt, _⟩ := List.getElem?_eq_some_iff.mp he
    rw [← hrest, hflat, offset, List.getElem?_append_right (Nat.le_add_right _ _),
      Nat.add_sub_cancel_left, List.getElem?_append_left hlt, he]
  rw [List.getElem?_map, Option.map_eq_some_iff] at hread
  obtain ⟨⟨tag, e'⟩, hat, rfl⟩ := hread
  exact ⟨tag, hat⟩

/-- The later of two answers belongs to the later call. -/
theorem Answering.position_lt {calls : List RequestCall} {turns : List Turn} {stream : KernelStream}
    (h : Answering calls turns stream) {a b j k : Nat} {x y : Envelope}
    (ha : stream[j]? = some (some a, x)) (hb : stream[k]? = some (some b, y)) (hab : a < b) :
    j < k := by
  obtain ⟨hj, hja⟩ := List.getElem?_eq_some_iff.mp ha
  obtain ⟨hk, hkb⟩ := List.getElem?_eq_some_iff.mp hb
  by_contra hnot
  rcases Nat.lt_or_eq_of_le (Nat.le_of_not_lt hnot) with hlt | rfl
  · have hordered := List.pairwise_iff_getElem.mp (List.pairwise_filterMap.mp h.in_order) k j hk hj
      hlt b (by rw [hkb]) a (by rw [hja])
    omega
  · rw [hja] at hkb
    cases hkb
    exact Nat.lt_irrefl _ hab

/-- An acknowledgement that a call reads is marked, with its own number or an
earlier one, and answers the call of that number. -/
theorem Heard.reply_marked {calls : List RequestCall} {turns : List Turn} {stream : KernelStream}
    (h : Heard calls turns stream) {i k : Nat} {turn : Turn} {e : Envelope} {reply : Reply}
    (hturn : turns[i]? = some turn) (he : turn.reads[k]? = some e) (hreply : reply.CarriedBy e) :
    ∃ m call, m ≤ i ∧ calls[m]? = some call ∧ call.AnsweredBy e ∧
      stream[offset turns i + k]? = some (some m, e) := by
  obtain ⟨tag, hat⟩ := h.read_at hturn he
  cases tag with
  | none =>
      rcases h.traffic e (List.mem_of_getElem? hat) with ⟨event, hevent⟩ | ⟨timestamp, hping⟩
      · cases reply <;> simp [Reply.CarriedBy, hevent] at hreply
      · cases reply <;> simp [Reply.CarriedBy, hping] at hreply
  | some m =>
      obtain ⟨hlt, hoffset⟩ := h.causal _ _ _ hat
      obtain ⟨call, hcall⟩ : ∃ call, calls[m]? = some call := ⟨_, List.getElem?_eq_getElem hlt⟩
      refine ⟨m, call, ?_, hcall, h.answers m e call (List.mem_of_getElem? hat) hcall, hat⟩
      -- The answer to a later call could not have been read yet.
      by_contra hlater
      have hread : k < turn.reads.length := (List.getElem?_eq_some_iff.mp he).1
      have hnext := offset_mono turns (show i + 1 ≤ m by omega)
      rw [offset_succ hturn] at hnext
      omega

/-- **`publish_event`** returns its own acknowledgement exactly if no earlier
one was unread. -/
theorem publish_own_iff {calls : List RequestCall} {turns : List Turn} {stream : KernelStream}
    (h : Heard calls turns stream) {i : Nat} {eventType payloadJson : Bytes}
    {timeoutMs : UInt32} {rlink : RequestLink} {turn : Turn} {reply : Reply}
    (hturn : turns[i]? = some turn) (hack : ∃ ack, reply = .published ack)
    {early : List Envelope} {e : Envelope} (hreads : turn.reads = early ++ [e])
    (hearly : ∀ x ∈ early, publishTerminal x = false) (hreply : reply.CarriedBy e) :
    OwnAnswer turns stream i reply (.publishEvent eventType payloadJson timeoutMs rlink) ↔
      CaughtUp turns stream i (.publishEvent eventType payloadJson timeoutMs rlink) := by
  obtain ⟨ack, rfl⟩ := hack
  have hlast : turn.reads[early.length]? = some e := by simp [hreads]
  obtain ⟨m, call, hm, _, _, hat⟩ := h.reply_marked hturn hlast hreply
  have hend : offset turns (i + 1) = offset turns i + early.length + 1 := by
    rw [offset_succ hturn, hreads]
    simp [Nat.add_assoc]
  constructor
  · rintro ⟨j, e', _, hjlt, hj, hcarried⟩ k hk x ack' ⟨j', hj', hx⟩ hpublished
    -- The earlier acknowledgement stands before the call's own one, and was read.
    have hlt := h.position_lt hx hj hk
    obtain ⟨l, rfl⟩ : ∃ l, j' = offset turns i + l := ⟨j' - offset turns i, by omega⟩
    have hin : l < early.length := by omega
    have hread : turn.reads[l]? = some early[l] := by
      rw [hreads, List.getElem?_append_left hin, List.getElem?_eq_getElem hin]
    obtain ⟨tag, hat'⟩ := h.read_at hturn hread
    rw [hx] at hat'
    cases hat'
    have hnot := hearly early[l] (List.getElem_mem hin)
    simp only [Reply.CarriedBy] at hpublished
    rw [publishTerminal, hpublished] at hnot
    cases hnot
  · intro hcaught
    rcases Nat.lt_or_eq_of_le hm with hlt | rfl
    · exact absurd hreply (hcaught m hlt e ack ⟨_, Nat.le_add_right _ _, hat⟩)
    · exact ⟨_, e, Nat.le_add_right _ _, by omega, hat, hreply⟩

/-- **`send_command`** returns an acknowledgement with its `command_id` if none
with another one was unread. -/
theorem command_own {calls : List RequestCall} {turns : List Turn} {stream : KernelStream}
    (h : Heard calls turns stream) {i : Nat} {commandId command paramsJson : Bytes}
    {link : SendLink} {links : List LinkEnv} {turn : Turn} {reply : Reply}
    (hcall : calls[i]? = some (.sendCommand commandId command paramsJson link links))
    (hturn : turns[i]? = some turn) (hack : ∃ ack, reply = .commanded ack)
    {e : Envelope} (hreads : turn.reads = [e]) (hreply : reply.CarriedBy e)
    (hcaught : CaughtUp turns stream i (.sendCommand commandId command paramsJson link links)) :
    OwnAnswer turns stream i reply (.sendCommand commandId command paramsJson link links) := by
  obtain ⟨ack, rfl⟩ := hack
  obtain ⟨m, call, hm, hcalls, hanswered, hat⟩ :=
    h.reply_marked hturn (show turn.reads[0]? = some e by simp [hreads]) hreply
  refine ⟨ack, rfl, ?_⟩
  rcases Nat.lt_or_eq_of_le hm with hlt | rfl
  · exact hcaught m hlt e ack ⟨_, Nat.le_add_right _ _, hat⟩ hreply
  · rw [hcall] at hcalls
    cases hcalls
    rcases hanswered with ⟨ack', hid, hcarried⟩ | ⟨error, herror⟩
    · simp only [Reply.CarriedBy] at hreply hcarried
      rw [hreply, Option.some.injEq, Payload.kernelCommandAck.injEq] at hcarried
      rw [hcarried.1, hid]
    · simp only [Reply.CarriedBy] at hreply
      rw [herror] at hreply
      cases hreply

/-- The turns of a run are those of its calls. -/
theorem runCalls_turn : ∀ (calls : List RequestCall) (p p'' : LinkedProcess) (turns : List Turn),
    runCalls lib proto calls p = some (turns, p'') →
    turns.length = calls.length ∧
      ∀ (i : Nat) (call : RequestCall) (turn : Turn), calls[i]? = some call →
        turns[i]? = some turn → ∃ q q', exec (call.perform lib proto) q = some (turn.result, q') ∧
          turn.reads = call.reads lib proto q := by
  intro calls
  induction calls with
  | nil =>
      intro p p'' turns hrun
      cases hrun
      simp
  | cons first calls ih =>
      intro p p'' turns hrun
      obtain ⟨result, p', later, hexec, hrest, rfl⟩ := runCalls_cons hrun
      obtain ⟨hlen, hturns⟩ := ih p' p'' later hrest
      refine ⟨by simp [hlen], ?_⟩
      intro i call turn hcall hturn
      rcases i with _ | i
      · simp only [List.getElem?_cons_zero, Option.some.injEq] at hcall hturn
        subst hcall hturn
        exact ⟨p, p', hexec, rfl⟩
      · exact hturns i call turn (by simpa using hcall) (by simpa using hturn)

/-! ### What the wire carries -/

/-- **What the calls receive** in a run that tears no message is what the kernel
has sent, up to some point. -/
theorem runCalls_received {calls : List RequestCall} {packets : List Packet} {p p' : LinkedProcess}
    {turns : List Turn} {envelopes : List Envelope} (hway : OnTheWay lib packets p.endpoint)
    (hcarries : Carries proto packets (calls.flatMap RequestCall.links)
      p.endpoint.client.reassembly envelopes)
    (huntorn : UntornCalls lib proto calls p)
    (hrun : runCalls lib proto calls p = some (turns, p')) :
    turns.flatMap Turn.reads <+: envelopes := by
  obtain ⟨taken, htook, hreads⟩ := runCalls_took calls packets p p' turns hway huntorn hrun
  have hfront := hcarries taken htook.front htook.clocks
  obtain ⟨n, _, hn⟩ : ∃ n, n ≤ envelopes.length ∧
      received proto taken p.endpoint.client.reassembly = (envelopes.take n).map .ok := by
    refine ⟨(received proto taken p.endpoint.client.reassembly).length, ?_, ?_⟩
    · simpa using hfront.length_le
    · rw [List.map_take]
      exact List.prefix_iff_eq_take.mp hfront
  rw [hreads _ hn]
  exact List.take_prefix n envelopes

/-- Envelopes in one frame each come out whenever they are taken. -/
theorem carries_whole {packets : List Packet} {links : List LinkEnv} {t : ReassemblyTable}
    {envelopes : List Envelope}
    (hwhole : ∀ p ∈ packets, hasFlag p.frame.flags flagFragmented = false)
    (hdecode : packets.map (fun p => decodeFrame proto p.frame) = envelopes.map .ok) :
    Carries proto packets links t envelopes := by
  intro taken hfront _
  have hframes : ∀ call ∈ taken, hasFlag call.frame.flags flagFragmented = false := by
    intro call hcall
    have hmem := List.mem_map_of_mem (f := AbsorbCall.frame) hcall
    rw [hfront] at hmem
    obtain ⟨p, hp, hframe⟩ := List.mem_map.mp hmem
    rw [← hframe]
    exact hwhole p (List.mem_of_mem_take hp)
  have hreceived : received proto taken t =
      (packets.take taken.length).map (fun p => decodeFrame proto p.frame) := by
    have hmap := congrArg (List.map (decodeFrame proto)) hfront
    rw [List.map_map, List.map_map] at hmap
    rw [received, framesOn_whole taken t hframes, List.map_map]
    exact hmap
  rw [hreceived, ← hdecode, List.map_take]
  exact List.take_prefix _ _

/-- So do the envelopes of a stream of whole and fragmented ones, as long as no
frame of it is refused and no set gets old. -/
theorem carries_mixed {key : Option Block32} {messages : List Message}
    {parts : List Part} {links : List LinkEnv} {t : ReassemblyTable}
    (hstream : MixedStream lib proto key messages parts) (htable : TableInv t)
    (hfree : ∀ k S chunks, SplitAs messages k S chunks → t.lookup S = none)
    (hsound : ∀ taken : List AbsorbCall,
      taken.map AbsorbCall.frame = ((parts.map Part.packet).take taken.length).map Packet.frame →
      (taken.map (fun call => (call.now, call.seen))).Sublist
        (links.map (fun link => (link.env.absorbNow, link.env.absorbSeen))) →
      Ageless taken t ∧ ∀ r ∈ received proto taken t, ∃ env, r = .ok env) :
    Carries proto (parts.map Part.packet) links t (envelopesOf messages (lastFrames parts)) := by
  intro taken hfront hclocks
  obtain ⟨hageless, hok⟩ := hsound taken hfront hclocks
  rw [← List.map_take, List.map_map] at hfront
  obtain ⟨_, hall⟩ := Buffered.run hstream taken [] parts t rfl (buffered_start htable hfree) hfront
    hageless hok
  exact ⟨_, hall⟩

end Endpoint

open Endpoint in
/-- **Acknowledgements and their calls.**  In every run of calls against a
kernel that answers each once and in order, whatever times out and whatever
comes in between, as long as no deadline passes in the middle of a message: a
call that starts caught up returns its own answer, and a `publish_event` that
returns one it does not own did not start caught up. -/
theorem acknowledgements_match_when_caught_up (lib : WireLibs) (proto : ProtoLib)
    (calls : List RequestCall) (packets : List Packet) (p p' : LinkedProcess) (turns : List Turn)
    (stream : KernelStream) (hway : OnTheWay lib packets p.endpoint)
    (hcarries : Carries proto packets (calls.flatMap RequestCall.links)
      p.endpoint.client.reassembly (stream.map Prod.snd))
    (huntorn : UntornCalls lib proto calls p)
    (hrun : runCalls lib proto calls p = some (turns, p'))
    (hkernel : Answering calls turns stream) :
    turns.flatMap Turn.reads <+: stream.map Prod.snd ∧
      ∀ (i : Nat) (call : RequestCall) (turn : Turn) (reply : Reply), calls[i]? = some call →
        turns[i]? = some turn → turn.result = .ok reply →
        (CaughtUp turns stream i call → OwnAnswer turns stream i reply call) ∧
        (∀ eventType payloadJson timeoutMs rlink,
          call = .publishEvent eventType payloadJson timeoutMs rlink →
          OwnAnswer turns stream i reply call → CaughtUp turns stream i call) := by
  have hreceived := runCalls_received hway hcarries huntorn hrun
  have hheard : Heard calls turns stream := ⟨hkernel, hreceived⟩
  refine ⟨hreceived, ?_⟩
  intro i call turn reply hcall hturn hresult
  obtain ⟨q, q', hexec, hreads⟩ := (runCalls_turn calls p p' turns hrun).2 i call turn hcall hturn
  rw [hresult] at hexec
  cases call with
  | publishEvent eventType payloadJson timeoutMs rlink =>
      obtain ⟨hack, early, e, hread, hearly, hreply⟩ := publishEvent_reads hexec
      have hiff :
          OwnAnswer turns stream i reply (.publishEvent eventType payloadJson timeoutMs rlink) ↔
            _ :=
        publish_own_iff hheard hturn hack (hreads.trans hread) hearly hreply
      exact ⟨hiff.mpr, fun _ _ _ _ _ => hiff.mp⟩
  | sendCommand commandId command paramsJson link links =>
      obtain ⟨hack, e, hread, hreply⟩ := sendCommand_reads hexec
      exact ⟨command_own hheard hcall hturn hack (hreads.trans hread) hreply,
        fun _ _ _ _ heq => by cases heq⟩
  | sendAction action paramsJson timeoutMs rlink =>
      exact ⟨fun _ => trivial, fun _ _ _ _ heq => by cases heq⟩
  | sendActionStreaming action timeoutMs nowMs link =>
      exact ⟨fun _ => trivial, fun _ _ _ _ heq => by cases heq⟩

/-! ### A late acknowledgement -/

namespace Client

/-- The acknowledgement of an event with a two-byte id, encoded. -/
def ackBytes (eventId : Bytes) : Bytes := [0xEA, 0x02, 0x06, 0x0A, 0x02] ++ eventId ++ [0x10, 0x01]

def ackEnvelope (eventId : Bytes) : Envelope :=
  { payload := some (.eventPublishAck eventId .ok []) }

/-- Protobuf on the request for an event of type `t` and on two
acknowledgements. -/
def publishProto : ProtoLib where
  serialize _ := [0xE2, 0x02, 0x03, 0x0A, 0x01, 0x74]
  parse bytes :=
    if bytes = ackBytes (ascii "e0") then
      some (ackEnvelope (ascii "e0"))
    else if bytes = ackBytes (ascii "e1") then
      some (ackEnvelope (ascii "e1"))
    else
      none

end Client

namespace Endpoint

open Client

def ackPacket (eventId : Bytes) : Packet := packetOf (ackBytes eventId)

/-- The acknowledgements of two calls. -/
def ackPackets : List Packet := [ackPacket (ascii "e0"), ackPacket (ascii "e1")]

def ackStream : KernelStream :=
  [(some 0, ackEnvelope (ascii "e0")), (some 1, ackEnvelope (ascii "e1"))]

/-- An event is published at `start`, with a timeout of 1 ms. -/
def publishAt (start : Int) (links : List LinkEnv) : RequestCall :=
  .publishEvent (ascii "t") [] 1 (linkAt start links)

/-- The sample acknowledgements parse. -/
theorem ackPackets_parse : ∀ q ∈ ackPackets,
    parseFrameBytes storingLibs q.bytes none = .ok (q.frame, q.bytes.length) := by
  decide +kernel

/-- They carry their envelopes. -/
theorem ackPackets_carry (links : List LinkEnv) :
    Carries publishProto ackPackets links ∅ (ackStream.map Prod.snd) :=
  carries_whole (by decide +kernel) (by decide +kernel)

/-- A call that finds an acknowledgement in front is not torn. -/
theorem publishAt_untorn {start : Int} {eventId : Bytes} {later : List Packet} {p : LinkedProcess}
    (hway : OnTheWay storingLibs (ackPacket eventId :: later) p.endpoint)
    (hws : p.endpoint.client.ws = none) (hsize : (ackPacket eventId).bytes.length ≤ 80)
    (hparse : publishProto.parse (ackBytes eventId) = some (ackEnvelope eventId)) :
    (publishAt start [comesAt start]).Untorn storingLibs publishProto p := by
  have hfront : publishProto.parse (ackPacket eventId).frame.payload =
      some (ackEnvelope eventId) := hparse
  refine .whole [] [comesAt start] hway hws rfl hfront rfl ?_ rfl
  intro q hq
  obtain rfl := List.mem_singleton.mp hq
  refine ⟨show hasFlag 0 flagFragmented = false by decide, ?_⟩
  intro link hlink
  obtain rfl := List.mem_singleton.mp hlink
  have hdeadline : requestDeadline 1 start = start + millisecond := by simp [requestDeadline]
  rw [show (linkAt start [comesAt start]).start = start from rfl, hdeadline]
  exact comesAt_inTime start hsize

/-- A kernel that sends the two acknowledgements. -/
theorem ackStream_answers {link link' : RequestLink} {turns : List Turn}
    (hlate : offset turns 1 ≤ 1) :
    Answering [.publishEvent (ascii "t") [] 1 link, .publishEvent (ascii "t") [] 1 link'] turns
      ackStream := by
  have hacks : ∀ x ∈ ackStream, ∃ k eventId, x = (some k, ackEnvelope eventId) := by
    simp [ackStream]
  refine ⟨by decide, ?_, ?_, ?_⟩
  · intro k e call hmem hcall
    obtain ⟨_, eventId, heq⟩ := hacks _ hmem
    cases heq
    have hcalls := List.mem_of_getElem? hcall
    simp only [List.mem_cons, List.not_mem_nil, or_false] at hcalls
    obtain rfl | rfl := hcalls <;> exact .inl ⟨⟨eventId, .ok, []⟩, rfl⟩
  · intro e hmem
    obtain ⟨_, _, heq⟩ := hacks _ hmem
    cases heq
  · intro j k e hat
    rcases j with _ | _ | j
    · cases hat
      exact ⟨by simp, by simp [offset]⟩
    · cases hat
      exact ⟨by simp, hlate⟩
    · simp [ackStream] at hat

end Endpoint

open Endpoint Client in
/-- The acknowledgement of a `publish_event` that timed out is returned by the
next one, though no message is torn. -/
theorem late_ack_answers_next_publish :
    ¬ ∀ (lib : WireLibs) (proto : ProtoLib) (calls : List RequestCall) (packets : List Packet)
      (p p' : LinkedProcess) (turns : List Turn) (stream : KernelStream),
      OnTheWay lib packets p.endpoint →
      Carries proto packets (calls.flatMap RequestCall.links) p.endpoint.client.reassembly
        (stream.map Prod.snd) →
      UntornCalls lib proto calls p → runCalls lib proto calls p = some (turns, p') →
      Answering calls turns stream →
      ∀ (i : Nat) (call : RequestCall) (turn : Turn) (reply : Reply), calls[i]? = some call →
        turns[i]? = some turn → turn.result = .ok reply → OwnAnswer turns stream i reply call := by
  intro hclaim
  let calls := [publishAt 0 [nothingUntil 1000000], publishAt 5000000 [comesAt 5000000]]
  let turns : List Turn := [⟨[], .error .timeout⟩,
    ⟨[ackEnvelope (ascii "e0")], .ok (.published ⟨ascii "e0", .ok, []⟩)⟩]
  obtain ⟨hway, hws⟩ := onTheWay_plain (p := processOn ackPackets) ackPackets_parse rfl rfl
  have hrun : ∃ p', runCalls storingLibs publishProto calls (processOn ackPackets) =
      some (turns, p') := by
    have hturns : (runCalls storingLibs publishProto calls (processOn ackPackets)).map Prod.fst =
        some turns := by
      decide +kernel
    obtain ⟨⟨_, p'⟩, hrun, rfl⟩ := Option.map_eq_some_iff.mp hturns
    exact ⟨p', hrun⟩
  obtain ⟨p', hrun⟩ := hrun
  have huntorn : UntornCalls storingLibs publishProto calls (processOn ackPackets) := by
    refine ⟨.idle hway hws rfl (nothingUntil_overdue _),
      fun r p₁ hexec => ⟨?_, fun _ _ _ => trivial⟩⟩
    have hleft : (exec ((publishAt 0 [nothingUntil 1000000]).perform storingLibs publishProto)
        (processOn ackPackets)).map (fun out => (out.2.plain, out.2.endpoint.client.inbound)) =
          some (true, (ackPackets.map Packet.bytes).flatten) := by
      decide +kernel
    obtain ⟨hway₁, hws₁⟩ := onTheWay_behind ackPackets_parse hexec hleft
    exact publishAt_untorn hway₁ hws₁ (by decide +kernel) (by decide +kernel)
  obtain ⟨j, e, _, hj, hat, _⟩ := hclaim storingLibs publishProto calls ackPackets _ p' turns
    ackStream hway (ackPackets_carry _) huntorn hrun (ackStream_answers (by decide)) 1 _ _ _ rfl rfl
    rfl
  obtain rfl : j = 0 := Nat.lt_one_iff.mp hj
  cases hat

open Endpoint Client in
/-- Two `publish_event` calls, each acknowledged in time. -/
theorem acknowledgements_match_when_caught_up_one :
    ∃ turns p', runCalls storingLibs publishProto
        [publishAt 0 [comesAt 0], publishAt 5000000 [comesAt 5000000]] (processOn ackPackets) =
          some (turns, p') ∧
      turns.flatMap Turn.reads <+: ackStream.map Prod.snd ∧
      OwnAnswer turns ackStream 1 (.published ⟨ascii "e1", .ok, []⟩)
        (publishAt 5000000 [comesAt 5000000]) := by
  let calls := [publishAt 0 [comesAt 0], publishAt 5000000 [comesAt 5000000]]
  let turns : List Turn := [⟨[ackEnvelope (ascii "e0")], .ok (.published ⟨ascii "e0", .ok, []⟩)⟩,
    ⟨[ackEnvelope (ascii "e1")], .ok (.published ⟨ascii "e1", .ok, []⟩)⟩]
  obtain ⟨hway, hws⟩ := onTheWay_plain (p := processOn ackPackets) ackPackets_parse rfl rfl
  have hturns : (runCalls storingLibs publishProto calls (processOn ackPackets)).map Prod.fst =
      some turns := by
    decide +kernel
  obtain ⟨⟨_, p'⟩, hrun, rfl⟩ := Option.map_eq_some_iff.mp hturns
  have huntorn : UntornCalls storingLibs publishProto calls (processOn ackPackets) := by
    refine ⟨publishAt_untorn hway hws (by decide +kernel) (by decide +kernel), fun r p₁ hexec =>
      ⟨?_, fun _ _ _ => trivial⟩⟩
    have hleft : (exec ((publishAt 0 [comesAt 0]).perform storingLibs publishProto)
        (processOn ackPackets)).map (fun out => (out.2.plain, out.2.endpoint.client.inbound)) =
          some (true, (ackPackets.tail.map Packet.bytes).flatten) := by
      decide +kernel
    obtain ⟨hway₁, hws₁⟩ := onTheWay_behind
      (fun q hq => ackPackets_parse q (List.mem_of_mem_tail hq)) hexec hleft
    exact publishAt_untorn hway₁ hws₁ (by decide +kernel) (by decide +kernel)
  obtain ⟨hread, hown⟩ := acknowledgements_match_when_caught_up storingLibs publishProto calls
    ackPackets _ p' turns ackStream hway (ackPackets_carry _) huntorn hrun
    (ackStream_answers (by decide))
  refine ⟨turns, p', hrun, hread, (hown 1 _ _ _ rfl rfl rfl).1 ?_⟩
  -- The first acknowledgement has been read when the second call starts.
  intro k hk e ack hunread _
  obtain rfl : k = 0 := Nat.lt_one_iff.mp hk
  obtain ⟨j, hj, hat⟩ := hunread
  have hread : 1 ≤ j := hj
  rcases j with _ | _ | j
  · omega
  · cases hat
  · simp [ackStream] at hat

end Vynkor
