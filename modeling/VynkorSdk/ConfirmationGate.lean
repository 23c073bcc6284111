import VynkorSdk.JsonScan
import VynkorSdk.KeyedTable
import VynkorSdk.Protocol

/-!
# The confirmation gate

`ConfirmationGate` splits an operation into `request_<op>`, which stores its
params, and `confirm_<op>`, which runs the stored params if an approved caller
asks.  The pending map is the only state and a mutex guards it.

A gate is its configuration together with the fact that the constructor
accepted it.  `route` is cut where other threads can come in between: `dispatch`
is everything before the critical section, `storeRequest` and `takePending` are
the two critical sections, and the replies are what follows.

Clock readings are exact integers.  The TTL is one too, in milliseconds; the
sweep compares ages with it in nanoseconds, and that product runs in 64 bits.
-/

namespace Vynkor

open ByteCodec KeyedTable

structure PendingAction where
  action : Bytes
  params : Bytes
  callerPluginId : Bytes
  createdAt : Int
  deriving DecidableEq, Repr

structure GateConfig where
  op : Bytes
  description : Bytes
  paramsSchema : Bytes
  risk : ActionRisk
  confirmCallers : List Bytes
  deriving DecidableEq, Repr

/-- `isalnum` in the C locale, `-` or `_`. -/
def isOpChar (c : UInt8) : Bool :=
  (0x30 ≤ c && c ≤ 0x39) || (0x41 ≤ c && c ≤ 0x5A) || (0x61 ≤ c && c ≤ 0x7A) ||
    c == 0x2D || c == 0x5F

def requestPrefix : Bytes := ascii "request_"
def confirmPrefix : Bytes := ascii "confirm_"

/-- The checks of the constructor, in its order. -/
def GateConfig.check (c : GateConfig) : Except Exn Unit :=
  let invalid (why : String) : Except Exn Unit :=
    .error (.stdInvalidArgument (ascii "ConfirmationGate: " ++ ascii why))
  if c.op = [] then
    invalid "operation name must not be empty"
  else if !c.op.all isOpChar then
    invalid "operation name may only contain ASCII alphanumerics, '-' and '_'"
  else if requestPrefix.isPrefixOf c.op || confirmPrefix.isPrefixOf c.op then
    invalid ("operation name must not start with request_/confirm_ " ++
      "(would collide with the gate's own action names)")
  else if c.description = [] then
    invalid "description must not be empty"
  else if c.confirmCallers = [] then
    invalid "confirm_callers must name at least one caller allowed to confirm"
  else
    .ok ()

/-- A constructed gate; the TTL is in milliseconds. -/
structure ConfirmationGate extends GateConfig where
  accepted : toGateConfig.check = .ok ()
  pendingTtl : Int := 300000

namespace ConfirmationGate

def withPendingTtl (g : ConfirmationGate) (ttl : Int) : ConfirmationGate :=
  { g with pendingTtl := ttl }

/-! ### Who may confirm -/

/-- One entry of the allowlist: an exact id, or `prefix.*` for every id that
continues `prefix.`. -/
def allows (allowed callerPluginId : Bytes) : Bool :=
  let start := allowed.take (allowed.length - 2)
  if allowed.length > 2 && allowed.drop (allowed.length - 2) == ascii ".*" then
    start.isPrefixOf callerPluginId && callerPluginId.length > start.length &&
      callerPluginId[start.length]? == some 0x2E
  else
    callerPluginId == allowed

def mayConfirm (g : ConfirmationGate) (callerPluginId : Bytes) : Bool :=
  g.confirmCallers.any (fun allowed => allows allowed callerPluginId)

/-! ### The critical sections -/

/-- The pending map. -/
abbrev PendingMap := Table Bytes PendingAction

/-- `pending_ttl_` as the sweep compares it with an age. -/
def ttlNanos (g : ConfirmationGate) : Int := toInt64 (g.pendingTtl * millisecond)

/-- `sweep_expired_locked` at the given clock reading. -/
def sweep (g : ConfirmationGate) (now : Int) (t : PendingMap) : PendingMap :=
  retain (fun _ p => !decide (now - p.createdAt ≥ g.ttlNanos)) t

/-- `std::map::emplace`: an entry that is there stays. -/
def emplace (id : Bytes) (pending : PendingAction) (t : PendingMap) : PendingMap :=
  if (t.lookup id).isSome then t else t.insert id pending

/-- The id of a stored request: wall clock and process-wide counter. -/
def pendingId (millis seq : UInt64) : Bytes :=
  ascii "pending-" ++ decimal millis.toNat ++ ascii "-" ++ decimal seq.toNat

/-- The clock readings of one critical section.  A take makes the first one
only. -/
structure Readings where
  sweptAt : Int
  millis : UInt64 := 0
  createdAt : Int := 0

def storedEntry (req : ActionRequest) (createdAt : Int) : PendingAction :=
  { action := req.action, params := req.paramsJson, callerPluginId := req.callerPluginId,
    createdAt := createdAt }

def storeRequest (g : ConfirmationGate) (req : ActionRequest) (r : Readings) (seq : UInt64)
    (t : PendingMap) : Bytes × PendingMap :=
  let id := pendingId r.millis seq
  (id, emplace id (storedEntry req r.createdAt) (g.sweep r.sweptAt t))

def takePending (g : ConfirmationGate) (now : Int) (id : Bytes) (t : PendingMap) :
    Option PendingAction × PendingMap :=
  let t := g.sweep now t
  match t.lookup id with
  | none => (none, t)
  | some pending => (some pending, t.erase id)

/-! ### The rest of `route` -/

def notFound (actionId : Bytes) : List Envelope :=
  [{ payload := some (.actionResponse
      { actionId := actionId, status := .notFound, error := ascii "unknown action" }) }]

/-- `to_string` of a signed number. -/
def decimalInt (n : Int) : Bytes :=
  if n < 0 then ascii "-" ++ decimal n.natAbs else decimal n.natAbs

/-- The data of the reply to a stored request; the TTL is cut to seconds towards
zero. -/
def storedText (g : ConfirmationGate) (req : ActionRequest) (id : Bytes) : Bytes :=
  ascii "\x7b\"pending_id\":\"" ++ jsonEscape id ++ ascii "\",\"action\":\"" ++
    jsonEscape req.action ++ ascii "\",\"ttl_secs\":" ++ decimalInt (g.pendingTtl.tdiv 1000) ++
    ascii "\x7d"

def storedReply (g : ConfirmationGate) (req : ActionRequest) (id : Bytes) : List Envelope :=
  [responseEnvelope req.actionId (.Ok (g.storedText req id))]

def deniedReply (g : ConfirmationGate) (req : ActionRequest) : List Envelope :=
  [responseEnvelope req.actionId (.Err (ascii "permission denied: caller " ++
    req.callerPluginId ++ ascii " may not confirm " ++ g.op ++ ascii " (approved callers: " ++
    (ascii ", ").intercalate g.confirmCallers ++ ascii ")"))]

def invalidParamsReply (req : ActionRequest) : List Envelope :=
  [responseEnvelope req.actionId (.Err (ascii
    "invalid confirm params: confirm params must include a string pending_id"))]

def noPendingReply (g : ConfirmationGate) (req : ActionRequest) (id : Bytes) : List Envelope :=
  [responseEnvelope req.actionId (.Err (ascii "no pending " ++ g.op ++
    ascii " request with id " ++ id))]

/-- Where a call of `route` goes before it touches the pending map. -/
inductive Dispatch
  | answer (outcome : Except Exn (List Envelope))
  | store
  | take (id : Bytes)
  deriving DecidableEq

def dispatch (g : ConfirmationGate) (req : ActionRequest) : Dispatch :=
  if requestPrefix.isPrefixOf req.action then
    if req.action.drop 8 ≠ g.op then .answer (.ok (notFound req.actionId)) else .store
  else if confirmPrefix.isPrefixOf req.action then
    if req.action.drop 8 ≠ g.op then
      .answer (.ok (notFound req.actionId))
    else if !g.mayConfirm req.callerPluginId then
      .answer (.ok (g.deniedReply req))
    else
      match jsonFindString req.paramsJson (ascii "pending_id") with
      | .error e => .answer (.error e)
      | .ok none => .answer (.ok (invalidParamsReply req))
      | .ok (some id) => .take id
  else
    .answer (.ok (notFound req.actionId))

/-! ### What the parts do -/

variable {g : ConfirmationGate}

/-- The test `route` makes on an action name: the first eight bytes, and the
rest. -/
theorem eq_append_op_iff {start action op : Bytes} (hstart : start.length = 8) :
    action = start ++ op ↔ start.isPrefixOf action = true ∧ action.drop 8 = op := by
  rw [List.isPrefixOf_iff_prefix]
  constructor
  · intro h
    subst h
    exact ⟨List.prefix_append _ _, List.drop_left' hstart⟩
  · intro h
    obtain ⟨⟨rest, hrest⟩, hop⟩ := h
    rw [← hop, ← hrest, List.drop_left' hstart]

/-- No action name is both. -/
theorem confirm_not_request {action : Bytes} (h : confirmPrefix.isPrefixOf action = true) :
    requestPrefix.isPrefixOf action = false := by
  obtain ⟨rest, rfl⟩ := List.isPrefixOf_iff_prefix.mp h
  rfl

/-- A request is stored exactly when it is the gate's request action. -/
theorem dispatch_eq_store {req : ActionRequest} :
    g.dispatch req = .store ↔ req.action = requestPrefix ++ g.op := by
  rw [eq_append_op_iff (by decide)]
  unfold dispatch
  constructor
  · intro h
    split at h
    · rename_i hrequest
      split at h
      · cases h
      · rename_i hop
        exact ⟨hrequest, not_not.mp hop⟩
    · split at h
      · split at h
        · cases h
        · split at h
          · cases h
          · split at h <;> cases h
      · cases h
  · intro h
    rw [if_pos h.1, if_neg (not_not.mpr h.2)]

/-- The call asks the gate to run the request `id`, and may. -/
structure Asks (g : ConfirmationGate) (req : ActionRequest) (id : Bytes) : Prop where
  action_eq : req.action = confirmPrefix ++ g.op
  may_confirm : g.mayConfirm req.callerPluginId = true
  reads_id : jsonFindString req.paramsJson (ascii "pending_id") = .ok (some id)

/-- A request takes an id exactly when it asks for it. -/
theorem dispatch_eq_take {req : ActionRequest} {id : Bytes} :
    g.dispatch req = .take id ↔ Asks g req id := by
  constructor
  · intro h
    unfold dispatch at h
    split at h
    · split at h <;> cases h
    · split at h
      · rename_i hconfirm
        split at h
        · cases h
        rename_i hop
        split at h
        · cases h
        rename_i hmay
        split at h
        · cases h
        · cases h
        · rename_i hreads
          cases h
          exact ⟨(eq_append_op_iff (by decide)).mpr ⟨hconfirm, not_not.mp hop⟩, by simpa using hmay,
            hreads⟩
      · cases h
  · intro h
    obtain ⟨hconfirm, hop⟩ := (eq_append_op_iff (by decide)).mp h.action_eq
    unfold dispatch
    rw [confirm_not_request hconfirm, if_neg (by simp), if_pos hconfirm, if_neg (not_not.mpr hop),
      h.may_confirm, if_neg (by simp), h.reads_id]

/-- The TTL fits the clock's unit: 292 years either way. -/
structure TtlFits (g : ConfirmationGate) : Prop where
  low : -9223372036854 ≤ g.pendingTtl
  high : g.pendingTtl ≤ 9223372036854

/-- A TTL that fits is compared as it was set. -/
theorem TtlFits.ttlNanos_eq (h : TtlFits g) : g.ttlNanos = g.pendingTtl * millisecond := by
  have hlow := h.low
  have hhigh := h.high
  apply toInt64_of_fits
  · unfold millisecond
    omega
  · unfold millisecond
    omega

/-- The sweep keeps exactly what is younger than the TTL. -/
theorem lookup_sweep {now : Int} {t : PendingMap} {id : Bytes} {p : PendingAction} :
    (g.sweep now t).lookup id = some p ↔
      t.lookup id = some p ∧ now - p.createdAt < g.ttlNanos := by
  rw [sweep, lookup_retain, Option.filter_eq_some_iff]
  simp

/-- The counter can be read off an id: neither number contains the dash. -/
theorem pendingId_seq {m m' q q' : UInt64} (h : pendingId m q = pendingId m' q') : q = q' := by
  have hdash : ascii "-" = [0x2D] := rfl
  have hsplit : decimal m.toNat ++ 0x2D :: decimal q.toNat =
      decimal m'.toNat ++ 0x2D :: decimal q'.toNat := by
    simpa [pendingId, hdash] using h
  have hseq := (List.append_cons_inj_of_notMem (dash_not_mem_decimal _)
    (dash_not_mem_decimal _)).mp hsplit
  exact UInt64.toNat_inj.mp (decimal_injective hseq.2.2)

/-- A take finds what is in the map and younger than the TTL. -/
theorem takePending_eq_some {now : Int} {id : Bytes} {t : PendingMap} {p : PendingAction} :
    (g.takePending now id t).1 = some p ↔
      t.lookup id = some p ∧ now - p.createdAt < g.ttlNanos := by
  rw [← lookup_sweep]
  unfold takePending
  cases hfound : (g.sweep now t).lookup id with
  | none => simp [hfound]
  | some q => simp [hfound]

/-- What is left after a take: what the sweep kept, less what was found. -/
theorem lookup_takePending {now : Int} {id id' : Bytes} {t : PendingMap} {p : PendingAction} :
    (g.takePending now id t).2.lookup id' = some p ↔
      (g.sweep now t).lookup id' = some p ∧ ¬ ((g.takePending now id t).1.isSome ∧ id' = id) := by
  unfold takePending
  cases hfound : (g.sweep now t).lookup id with
  | none => simp [hfound]
  | some q =>
      by_cases hid : id' = id
      · subst hid
        simp [hfound]
      · simp [hfound, hid, AList.lookup_erase_ne hid]

/-- What is there after a store under a new id. -/
theorem lookup_storeRequest {req : ActionRequest} {r : Readings} {seq : UInt64} {t : PendingMap}
    {id : Bytes} {p : PendingAction} (hnew : t.lookup (pendingId r.millis seq) = none) :
    (g.storeRequest req r seq t).2.lookup id = some p ↔
      (id = pendingId r.millis seq ∧ p = storedEntry req r.createdAt) ∨
        (id ≠ pendingId r.millis seq ∧ (g.sweep r.sweptAt t).lookup id = some p) := by
  have hswept : (g.sweep r.sweptAt t).lookup (pendingId r.millis seq) = none := by
    rw [sweep, lookup_retain, hnew]
    rfl
  unfold storeRequest emplace
  dsimp only
  rw [hswept, if_neg (by simp)]
  by_cases hid : id = pendingId r.millis seq
  · subst hid
    simp [eq_comm]
  · simp [hid, AList.lookup_insert_ne hid]

end ConfirmationGate

end Vynkor
