import Synergy.Origins

set_option autoImplicit false

namespace Synergy

-- The payload that ts_in writes.
def Call.written? : Call → Option Payload
  | .tsInPut _ data => some data
  | .tsInAdd _ _ data => some data
  | _ => none

-- What a message does to what a space stores and who waits there, and the tokens it makes the daemon send.
structure Effect where
  namedQueue : List SngTuple
  namedQueueRequests : List BlockingRequest
  tokens : List GenericToken

def Acted.effect (acted : Acted) : Effect := ⟨acted.space.namedQueue, acted.space.namedQueueRequests, tokensIn acted.sent⟩

def Handled.effect (spaceName : Bytes) (handled : Handled) : Option Effect :=
  (handled.self.spaceTable spaceName).map fun space => ⟨space.namedQueue, space.namedQueueRequests, tokensIn handled.sent⟩

theorem payload_near (call : Call) (data : Payload) (chunks later : List Chunk) (writes : call.written? = some data)
    (passed : recvItem chunks = .ok (data.bytes, later)) : call.payload true chunks = .ok (data.bytes, later) := by
  cases call with
  | tsInPut name payload => exact passed
  | tsInAdd anonId nonzero payload => exact passed
  | _ => cases writes

theorem payload_far (call : Call) (data : Payload) (chunks : List Chunk) (writes : call.written? = some data) :
    call.payload false chunks = .ok (data.bytes, chunks) := by
  cases call with
  | tsInPut name payload =>
      cases writes
      rfl
  | tsInAdd anonId nonzero payload =>
      cases writes
      rfl
  | _ => cases writes

theorem put_dispatched (env : Platform) (self : Tsd) (args : HandlerArg) (space : TsdElement) (ts : Ts) (name : Name) (data : Payload)
    (chunks later : List Chunk) (action : args.action = .tsPut) (place : args.isLocal = ts.isLocal)
    (passed : (Call.tsInPut name data).payload args.isLocal chunks = .ok (data.bytes, later)) :
    dispatch env self args space ⟨(Call.tsInPut name data).arguments ts, true, chunks⟩ =
      (p2pmRecvStr (UInt32.ofNat (name.chars.length + 1)) (name.chars ++ [0]) >>= fun chars =>
        putTuple env self args space chars data.bytes) >>= fun acted => .ok (acted, ⟨[], false, later⟩) := by
  have sent := dispatch_sent env self args space ts (.tsInPut name data) [] chunks action place
  rw [List.append_nil, passed] at sent
  refine sent.trans ?_
  simp only [Call.nameRead]
  cases p2pmRecvStr (UInt32.ofNat (name.chars.length + 1)) (name.chars ++ [0]) with
  | error stop => rfl
  | ok chars => cases args.isLocal <;> simp only [bind, Except.bind, Call.received, sizedArguments, act, action, if_true,
      Bool.false_eq_true, if_false]

theorem add_dispatched (env : Platform) (self : Tsd) (args : HandlerArg) (space : TsdElement) (ts : Ts) (anonId : UInt32)
    (nonzero : anonId ≠ 0) (data : Payload) (received : Nat) (chunks later : List Chunk) (action : args.action = .tsAdd)
    (place : args.isLocal = ts.isLocal) (size : (if args.isLocal then 0 else data.bytes.length) = received)
    (passed : (Call.tsInAdd anonId nonzero data).payload args.isLocal chunks = .ok (data.bytes, later)) :
    dispatch env self args space ⟨(Call.tsInAdd anonId nonzero data).arguments ts, true, chunks⟩ =
      addTuple env self args space anonId data.bytes received >>= fun acted => .ok (acted, ⟨[], false, later⟩) := by
  have sent := dispatch_sent env self args space ts (.tsInAdd anonId nonzero data) [] chunks action place
  rw [List.append_nil, passed] at sent
  refine sent.trans ?_
  rw [← size]
  cases args.isLocal <;> simp only [Call.nameRead, bind, Except.bind, Call.received, sizedArguments, act, if_true,
    Bool.false_eq_true, if_false]

theorem put_alike (env : Platform) (self : Tsd) (near far : HandlerArg) (space : TsdElement) (name data : Bytes)
    (action : near.action = far.action) (ticket : near.ticket = far.ticket) :
    putTuple env self near space name data = putTuple env self far space name data := by
  unfold putTuple
  rw [action, ticket]

theorem add_alike (env : Platform) (self : Tsd) (near far : HandlerArg) (space : TsdElement) (anonId : UInt32) (data : Bytes)
    (received : Nat) (action : near.action = far.action) (ticket : near.ticket = far.ticket) (single : space.tsMode ≠ .p2p) :
    addTuple env self near space anonId data 0 = addTuple env self far space anonId data received := by
  have here : ∀ args : HandlerArg, ¬ ((!args.isLocal) = true ∧
      (space.record (.accepted ⟨.null, anonId, data, far.ticket⟩)).tsMode = .p2p) := fun args both => single both.2
  unfold addTuple
  dsimp only
  rw [ticket, action, if_neg (here near), if_neg (here far)]

theorem add_apart (env : Platform) (self : Tsd) (near far : HandlerArg) (space : TsdElement) (anonId : UInt32) (data : Bytes)
    (received : Nat) (one two : Acted) (here : near.isLocal = true) (away : far.isLocal = false) (action : near.action = .tsAdd)
    (p2p : space.tsMode = .p2p) (first : addTuple env self near space anonId data 0 = .ok one)
    (second : addTuple env self far space anonId data received = .ok two) : tokensIn one.sent ≠ tokensIn two.sent := by
  have replicated : ∀ tk ∈ tokensIn one.sent, tk.id = 3 := by
    unfold addTuple at first
    dsimp only at first
    rw [if_neg (by simp [here])] at first
    obtain ⟨⟨rt, after, sent⟩, matched, first⟩ := bind_ok _ _ _ first
    cases first
    intro tk member
    obtain ⟨_, built⟩ := match_replicates env self _ _ _ rt after sent matched tk member
    rw [replicationToken, action, if_pos rfl] at built
    cases built
    rfl
  have announced : ∃ tk, tokensIn two.sent = [tk] ∧ tk.id = 2 := by
    unfold addTuple at second
    dsimp only at second
    rw [if_pos ⟨by simp [away], p2p⟩] at second
    cases second
    exact ⟨_, rfl, rfl⟩
  obtain ⟨tk, only, id⟩ := announced
  intro same
  have three := replicated tk (by rw [same, only]; exact List.mem_singleton.mpr rfl)
  rw [id] at three
  cases three

theorem write_handled (env : Platform) (daemon : Tsd) (arrival : Arrival) (ticket : Nat) (data : Payload) (space : TsdElement)
    (writes : arrival.call.written? = some data) (there : daemon.spaceTable arrival.ts.tsname.chars = some space)
    (active : space.isActivated = true) (write : Except Stop Acted) (input : Input)
    (handled : dispatch env daemon (arrival.args ticket) space ⟨arrival.call.arguments arrival.ts, true, arrival.chunks⟩ =
      write >>= fun acted => .ok (acted, input)) :
    (handler env daemon arrival.ts.isLocal ticket arrival.input).map (Handled.effect arrival.ts.tsname.chars) =
      write.map fun acted => some acted.effect := by
  have reached : handler env daemon arrival.ts.isLocal ticket arrival.input =
      dispatch env daemon (arrival.args ticket) space ⟨arrival.call.arguments arrival.ts, true, arrival.chunks⟩ >>= fun result =>
        .ok ⟨{ daemon with spaceTable := Function.update daemon.spaceTable arrival.ts.tsname.chars (some result.1.space) },
          result.1.sent, result.2⟩ := by
    have identity := buffer_string_short 50 arrival.client.chars arrival.client.clean arrival.client.short
    have dispatched := handler_dispatches env daemon arrival.ts _ _ ticket arrival.call.command true arrival.ts.tsname.chars
      (arrival.call.arguments arrival.ts) false arrival.chunks space identity (Or.inl rfl) there (Or.inr active)
    obtain ⟨client, ts, call, chunks⟩ := arrival
    cases call with
    | tsInPut name data => exact dispatched
    | tsInAdd anonId nonzero data => exact dispatched
    | _ => cases writes
  rw [reached, handled]
  cases write with
  | error stop => rfl
  | ok acted =>
      simp only [bind, Except.bind, Except.map, Handled.effect, Function.update_self, Option.map_some, Acted.effect]

theorem adds_apart (env : Platform) (daemon : Tsd) (ticket : Nat) (client other : Identity) (near far : Ts) (anonId : UInt32)
    (nonzero : anonId ≠ 0) (data : Payload) (chunks fewer later : List Chunk) (space : TsdElement) (here : near.isLocal = true)
    (away : far.isLocal = false) (same : far.tsname = near.tsname) (passed : recvItem chunks = .ok (data.bytes, later))
    (there : daemon.spaceTable near.tsname.chars = some space) (active : space.isActivated = true) (p2p : space.tsMode = .p2p) :
    (handler env daemon true ticket (Arrival.input ⟨client, near, .tsInAdd anonId nonzero data, chunks⟩)).map
        (Handled.effect near.tsname.chars) ≠
      (handler env daemon false ticket (Arrival.input ⟨other, far, .tsInAdd anonId nonzero data, fewer⟩)).map
        (Handled.effect near.tsname.chars) := by
  have nearHandled := write_handled env daemon ⟨client, near, .tsInAdd anonId nonzero data, chunks⟩ ticket data space rfl there active
    _ _ (add_dispatched env daemon _ space near anonId nonzero data 0 chunks later rfl rfl (if_pos here)
      (by rw [Arrival.args, here]; exact payload_near _ data chunks later rfl passed))
  have farHandled := write_handled env daemon ⟨other, far, .tsInAdd anonId nonzero data, fewer⟩ ticket data space rfl
    (by rw [same]; exact there) active _ _ (add_dispatched env daemon _ space far anonId nonzero data data.bytes.length fewer fewer rfl rfl
      (by simp [Arrival.args, away]) (by rw [Arrival.args, away]; exact payload_far _ data fewer rfl))
  dsimp only at nearHandled farHandled
  rw [here] at nearHandled
  rw [away, same] at farHandled
  rw [nearHandled, farHandled]
  obtain ⟨two, second⟩ : ∃ two, addTuple env daemon (Arrival.args ⟨other, far, .tsInAdd anonId nonzero data, fewer⟩ ticket) space
      anonId data.bytes data.bytes.length = .ok two := by
    unfold addTuple
    dsimp only
    rw [if_pos ⟨by simp [Arrival.args, away], p2p⟩]
    exact ⟨_, rfl⟩
  rw [second]
  intro equal
  cases first : addTuple env daemon (Arrival.args ⟨client, near, .tsInAdd anonId nonzero data, chunks⟩ ticket) space anonId
      data.bytes 0 with
  | error stop =>
      rw [first] at equal
      cases equal
  | ok one =>
      rw [first] at equal
      have tokens := congrArg Effect.tokens (Option.some.inj (Except.ok.inj equal))
      exact add_apart env daemon _ _ space anonId data.bytes data.bytes.length one two here away rfl p2p first second tokens

-- A ts_in does the same from a local and from a remote client, except for an anonymous tuple in a space of the P2P mode.
theorem local_and_remote_alike (env : Platform) (daemon : Tsd) (ticket : Nat) (near far : Arrival) (data : Payload) (later : List Chunk)
    (space : TsdElement) (here : near.ts.isLocal = true) (away : far.ts.isLocal = false) (same : far.ts.tsname = near.ts.tsname)
    (call : far.call = near.call) (writes : near.call.written? = some data) (passed : recvItem near.chunks = .ok (data.bytes, later))
    (there : daemon.spaceTable near.ts.tsname.chars = some space) (active : space.isActivated = true) :
    (handler env daemon true ticket near.input).map (Handled.effect near.ts.tsname.chars) =
        (handler env daemon false ticket far.input).map (Handled.effect near.ts.tsname.chars) ↔
      ¬ (near.call.command = .tsAdd ∧ space.tsMode = .p2p) := by
  obtain ⟨client, ts, asked, chunks⟩ := near
  obtain ⟨other, from_, again, fewer⟩ := far
  dsimp only at here away same call writes passed there active
  subst call
  have nearHandled := write_handled env daemon ⟨client, ts, again, chunks⟩ ticket data space writes there active
  have farHandled := write_handled env daemon ⟨other, from_, again, fewer⟩ ticket data space writes (by rw [same]; exact there) active
  dsimp only at nearHandled farHandled
  rw [here] at nearHandled
  rw [away, same] at farHandled
  cases again with
  | tsInPut name payload =>
      cases writes
      rw [nearHandled _ _ (put_dispatched env daemon _ space ts name data chunks later rfl rfl
          (by rw [Arrival.args, here]; exact payload_near _ data chunks later rfl passed)),
        farHandled _ _ (put_dispatched env daemon _ space from_ name data fewer fewer rfl rfl
          (by rw [Arrival.args, away]; exact payload_far _ data fewer rfl))]
      have alike : ∀ chars, putTuple env daemon (Arrival.args ⟨client, ts, .tsInPut name data, chunks⟩ ticket) space chars data.bytes =
          putTuple env daemon (Arrival.args ⟨other, from_, .tsInPut name data, fewer⟩ ticket) space chars data.bytes :=
        fun chars => put_alike env daemon _ _ space chars data.bytes rfl rfl
      simp only [alike, true_iff]
      rintro ⟨adds, _⟩
      cases adds
  | tsInAdd anonId nonzero payload =>
      cases writes
      by_cases p2p : space.tsMode = .p2p
      · have apart := adds_apart env daemon ticket client other ts from_ anonId nonzero data chunks fewer later space here away same
          passed there active p2p
        exact ⟨fun equal => absurd equal apart, fun other => absurd ⟨rfl, p2p⟩ other⟩
      · rw [nearHandled _ _ (add_dispatched env daemon _ space ts anonId nonzero data 0 chunks later rfl rfl (if_pos here)
            (by rw [Arrival.args, here]; exact payload_near _ data chunks later rfl passed)),
          farHandled _ _ (add_dispatched env daemon _ space from_ anonId nonzero data data.bytes.length fewer fewer rfl rfl
            (by simp [Arrival.args, away]) (by rw [Arrival.args, away]; exact payload_far _ data fewer rfl)),
          add_alike env daemon (Arrival.args ⟨client, ts, .tsInAdd anonId nonzero data, chunks⟩ ticket)
            (Arrival.args ⟨other, from_, .tsInAdd anonId nonzero data, fewer⟩ ticket) space anonId data.bytes data.bytes.length
            rfl rfl p2p]
        exact ⟨fun _ both => p2p both.2, fun _ => rfl⟩
  | _ => cases writes

def sampleWriter (isLocal : Bool) (call : Call) : Arrival where
  client := sampleClient
  ts := { host := .big, isLocal := isLocal, tsname := sampleSpaceName }
  call := call
  chunks := if isLocal then [sampleChunk] else []

def sampleP2p : List SngNamespace :=
  [{ name := [115], directEndpoint := List.replicate 256 0, tsMode := .p2p, tsdMode := .token }]

theorem local_and_remote_alike_sample :
    (handler samplePlatform (tsdCreate [101] 1 sampleP2p) true 0 (sampleWriter true (.tsInPut sampleName samplePayload)).input).map
        (Handled.effect [115]) =
      (handler samplePlatform (tsdCreate [101] 1 sampleP2p) false 0 (sampleWriter false (.tsInPut sampleName samplePayload)).input).map
        (Handled.effect [115]) :=
  (local_and_remote_alike samplePlatform (tsdCreate [101] 1 sampleP2p) 0 (sampleWriter true (.tsInPut sampleName samplePayload))
    (sampleWriter false (.tsInPut sampleName samplePayload)) samplePayload [] _ rfl rfl rfl rfl rfl rfl rfl rfl).mpr
    fun both => by cases both.1

theorem anonymous_local_and_remote_differ :
    (handler samplePlatform (tsdCreate [101] 1 sampleP2p) true 0 (sampleWriter true (.tsInAdd 5 (by decide) samplePayload)).input).map
        (Handled.effect [115]) ≠
      (handler samplePlatform (tsdCreate [101] 1 sampleP2p) false 0
        (sampleWriter false (.tsInAdd 5 (by decide) samplePayload)).input).map (Handled.effect [115]) :=
  adds_apart samplePlatform (tsdCreate [101] 1 sampleP2p) 0 sampleClient sampleClient (sampleWriter true .tsClose).ts
    (sampleWriter false .tsClose).ts 5 (by decide) samplePayload [sampleChunk] [] [] _ rfl rfl rfl rfl rfl rfl rfl

end Synergy
