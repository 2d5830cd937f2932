import Synergy.P2pmJoin
import Synergy.P2pmMessages
import Synergy.Ring

set_option autoImplicit false

namespace Synergy

variable {n : Nat}

-- The addresses of the ring with the joining node behind member p, from the joining node on and around.
def JoinSetting.inserted (setting : JoinSetting n) [NeZero n] (p : Fin n) (k : Nat) : Bytes :=
  match k % (n + 1) with
  | 0 => setting.env.endpoint
  | k + 1 => (setting.members (nodeAfter p k)).endpoint

-- A ring of members with nothing under way, each with the pointers and the list of its place.
structure Gathered (setting : JoinSetting n) [NeZero n] (start : Joining n) (rMax : UInt32) (endpoint : Fin n → Endpoint) : Prop where
  named : ∀ i, (setting.members i).endpoint = (endpoint i).chars
  distinct : Function.Injective endpoint
  serving : ∀ i, (start.ring i).currentStatus = if n = 1 then .oneRing else .member
  successor : ∀ i, (start.ring i).nodeList.successor = (endpoint (i + 1)).chars
  predecessor : ∀ i, (start.ring i).nodeList.predecessor = (endpoint (i - 1)).chars
  lists : ∀ i, (start.ring i).nodeList.toNodeInfo.Follows endpoint rMax i
  still : ∀ i, (start.ring i).serverInbox = [] ∧ (start.ring i).successorSocket.inbox = [] ∧
    (start.ring i).predecessorSocket.inbox = []

-- A new node as its constructor leaves it, with member p for predecessor.
structure Newcomer (setting : JoinSetting n) (start : Joining n) (p : Fin n) : Prop where
  joining : start.node.currentStatus = .joining
  predecessor : start.node.nodeList.predecessor = (setting.members p).endpoint
  stranger : ∀ i, (setting.members i).endpoint ≠ setting.env.endpoint
  predecessorUnused : start.node.predecessorSocket.connected = [] ∧ start.node.predecessorSocket.inbox = []
  successorUnused : start.node.successorSocket.connected = [] ∧ start.node.successorSocket.inbox = []
  opened : start.node.closed = []
  accepted : ∀ i, setting.env.connects (setting.members i).endpoint = true

structure Inserted (setting : JoinSetting n) [NeZero n] (start final : Joining n) (p : Fin n) : Prop where
  before : (final.ring p).nodeList.successor = setting.env.endpoint
  behind : (final.ring (p + 1)).nodeList.predecessor = setting.env.endpoint
  predecessor : final.node.nodeList.predecessor = (setting.members p).endpoint
  successor : final.node.nodeList.successor = (setting.members (p + 1)).endpoint
  otherSuccessors : ∀ i, i ≠ p → (final.ring i).nodeList.successor = (start.ring i).nodeList.successor
  otherPredecessors : ∀ i, i ≠ p + 1 → (final.ring i).nodeList.predecessor = (start.ring i).nodeList.predecessor
  slots : ∀ k < final.node.nodeList.r.toNat, final.node.nodeList.slot k = setting.inserted p (k + 1)
  slotsBefore : ∀ k < (final.ring p).nodeList.r.toNat, (final.ring p).nodeList.slot k = setting.inserted p k

-- Nothing has a say in what rt holds before it is received into.
def JoinInserts (setting : JoinSetting n) [NeZero n] (start : Joining n) (p : Fin n) : Prop :=
  ∀ rt, ∃ final, (p2pmJoin { setting with rt := rt }).run start = .ok (.success, final) ∧ Inserted setting start final p

theorem run_bind_ok {α β : Type} (one : JoinM n α) (two : α → JoinM n β) (state final : Joining n) (result : β)
    (done : (one >>= two).run state = .ok (result, final)) :
    ∃ value middle, one.run state = .ok (value, middle) ∧ (two value).run middle = .ok (result, final) := by
  rw [StateT.run_bind] at done
  obtain ⟨⟨value, middle⟩, first, rest⟩ := bind_ok _ _ _ done
  exact ⟨value, middle, first, rest⟩

theorem set_socket_same (state : Joining n) (side : Side) : state.setSocket (state.socket side) side = state := by
  cases side with
  | predecessor => rfl
  | successor => rfl

theorem recv_on_empty (setting : JoinSetting n) (side : Side) (state : Joining n) (empty : (state.socket side).inbox = []) :
    (recvOn setting side).run state = .ok (none, state) := by
  have same : ({ state.socket side with inbox := [] } : Dealer) = state.socket side := by rw [← empty]
  have received : recvWord setting.env.host (state.socket side).inbox = .ok (none, []) := by rw [empty, recvWord]
  simp only [recvOn, StateT.run_bind, StateT.run_get, pure_bind, received]
  change Except.ok (none, state.setSocket { state.socket side with inbox := [] } side) = _
  rw [same, set_socket_same]

theorem try_live_loop_dead (setting : JoinSetting n) (side : Side) (state : Joining n) (rounds : Nat) (rt : UInt32)
    (empty : (state.socket side).inbox = []) (stray : rt ≠ P2pmReptypes.pongRep.code) :
    (tryLiveLoop setting side rounds rt).run state = .ok (false, state) := by
  induction rounds with
  | zero => rfl
  | succ rounds ih =>
      rw [tryLiveLoop, StateT.run_bind, recv_on_empty setting side state empty]
      simp only [bind, Except.bind, Option.getD_none, if_neg stray, ih]

theorem connect_on_run (setting : JoinSetting n) (side : Side) (address : Bytes) (state : Joining n) :
    (connectOn setting side address).run state =
      .ok ((zmqConnect setting.env state.node.closed (state.socket side) address).1,
        state.setSocket (zmqConnect setting.env state.node.closed (state.socket side) address).2 side) := rfl

-- Whatever zmq_connect has done, zmq_disconnect undoes.
theorem disconnect_connected (env : P2pmEnv) (closed : List Nat) (socket : Dealer) (address : Bytes)
    (unconnected : socket.connected = []) : zmqDisconnect (zmqConnect env closed socket address).2 address = socket := by
  have same : ({ socket with connected := [] } : Dealer) = socket := by rw [← unconnected]
  simp only [zmqConnect]
  split
  · simp only [zmqDisconnect, unconnected, List.erase_nil, same]
  · simp only [zmqDisconnect, unconnected, List.nil_append, List.erase_cons_head, same]

theorem connect_keeps_inbox (env : P2pmEnv) (closed : List Nat) (socket : Dealer) (address : Bytes) :
    (zmqConnect env closed socket address).2.inbox = socket.inbox := by
  simp only [zmqConnect]
  split <;> rfl

theorem join_gives_up (setting : JoinSetting n) (start : Joining n) (p : Fin n) (newcomer : Newcomer setting start p)
    (stray : setting.rt start.tries ≠ P2pmReptypes.pongRep.code) :
    ∃ final, (p2pmJoin setting).run start = .ok (.failure, final) ∧ final.node = start.node ∧ final.ring = start.ring := by
  obtain ⟨unconnected, empty⟩ := newcomer.predecessorUnused
  let address := start.node.nodeList.predecessor
  let connected := (zmqConnect setting.env start.node.closed start.node.predecessorSocket address).2
  let tried : Joining n := { start.setSocket connected .predecessor with tries := start.tries + 1 }
  have inbox : (tried.socket .predecessor).inbox = [] :=
    (connect_keeps_inbox setting.env start.node.closed start.node.predecessorSocket address).trans empty
  have dead : (tryLiveLoop setting .predecessor 4 (setting.rt start.tries)).run tried = .ok (false, tried) :=
    try_live_loop_dead setting .predecessor tried 4 _ inbox stray
  have tries : (p2pmTryLive setting .predecessor).run (start.setSocket connected .predecessor) = .ok (false, tried) := dead
  have back : zmqDisconnect connected address = start.node.predecessorSocket :=
    disconnect_connected setting.env start.node.closed start.node.predecessorSocket address unconnected
  refine ⟨{ start with tries := start.tries + 1 }, ?_, rfl, rfl⟩
  simp only [p2pmJoin, StateT.run_bind, StateT.run_get, pure_bind, newcomer.joining, ne_eq, not_true_eq_false, if_false]
  rw [connect_on_run]
  change ((p2pmTryLive setting .predecessor).run (start.setSocket connected .predecessor) >>= _) = _
  rw [tries]
  change Except.ok (P2pmOpcodes.failure, tried.setSocket (zmqDisconnect connected address) .predecessor) = _
  rw [back]
  rfl

theorem set_socket_list (state : Joining n) (socket : Dealer) (side : Side) :
    (state.setSocket socket side).node.nodeList = state.node.nodeList := by
  cases side with
  | predecessor => rfl
  | successor => rfl

def KeepsList {α : Type} (call : JoinM n α) : Prop :=
  ∀ state value next, call.run state = .ok (value, next) → next.node.nodeList = state.node.nodeList

theorem keeps_list_bind {α β : Type} (one : JoinM n α) (two : α → JoinM n β) (first : KeepsList one)
    (second : ∀ value, KeepsList (two value)) : KeepsList (one >>= two) := by
  intro state result final done
  obtain ⟨value, middle, ran, rest⟩ := run_bind_ok one two state final result done
  exact (second value middle result final rest).trans (first state value middle ran)

theorem keeps_list_pure {α : Type} (value : α) : KeepsList (pure value : JoinM n α) := by
  intro state result next done
  cases done
  rfl

theorem send_on_list (setting : JoinSetting n) (side : Side) (parts : List MsgPart) : KeepsList (sendOn setting side parts) := by
  intro state value next done
  obtain ⟨_, _, got, done⟩ := run_bind_ok _ _ _ _ _ done
  cases got
  cases heard : (state.socket side).connected.head?.bind setting.at with
  | none =>
      simp only [heard] at done
      cases done
      rfl
  | some i =>
      simp only [heard] at done
      obtain ⟨served, middle, ran, done⟩ := run_bind_ok _ _ _ _ _ done
      have lifted : ((memberServes (setting.members i) (state.ring i) (setting.identity side) parts).bind
          fun served => .ok (served, state)) = .ok (served, middle) := ran
      obtain ⟨_, _, same⟩ := bind_ok _ _ _ lifted
      cases same
      cases done
      exact set_socket_list _ _ side

theorem recv_on_list (setting : JoinSetting n) (side : Side) : KeepsList (recvOn setting side) := by
  intro state value next done
  obtain ⟨_, _, got, done⟩ := run_bind_ok _ _ _ _ _ done
  cases got
  obtain ⟨received, middle, ran, done⟩ := run_bind_ok _ _ _ _ _ done
  have lifted : ((recvWord setting.env.host (state.socket side).inbox).bind fun got => .ok (got, state)) = .ok (received, middle) := ran
  obtain ⟨_, _, same⟩ := bind_ok _ _ _ lifted
  cases same
  cases done
  exact set_socket_list _ _ side

theorem connect_on_list (setting : JoinSetting n) (side : Side) (address : Bytes) : KeepsList (connectOn setting side address) := by
  intro state value next done
  rw [connect_on_run] at done
  cases done
  exact set_socket_list state _ side

theorem try_live_loop_list (setting : JoinSetting n) (side : Side) (rounds : Nat) (rt : UInt32) :
    KeepsList (tryLiveLoop setting side rounds rt) := by
  induction rounds generalizing rt with
  | zero => exact keeps_list_pure false
  | succ rounds ih =>
      refine keeps_list_bind _ _ (recv_on_list setting side) fun word => ?_
      by_cases pong : word.getD rt = P2pmReptypes.pongRep.code
      · simp only [pong, if_true]
        exact keeps_list_pure true
      · simp only [pong, if_false]
        exact ih _

theorem try_live_list (setting : JoinSetting n) (side : Side) : KeepsList (p2pmTryLive setting side) := by
  intro state value next done
  have loop : (tryLiveLoop setting side 4 (setting.rt state.tries)).run { state with tries := state.tries + 1 } = .ok (value, next) := done
  exact try_live_loop_list setting side 4 _ { state with tries := state.tries + 1 } value next loop

theorem predecessor_connected_fails (state final : Joining n) (result : P2pmOpcodes)
    (done : predecessorConnected.run state = .ok (result, final)) : result = .failure := by
  cases done
  rfl

theorem successor_connected_fails (setting : JoinSetting n) (state final : Joining n) (result : P2pmOpcodes)
    (done : (successorConnected setting).run state = .ok (result, final)) : result = .failure := by
  obtain ⟨_, _, _, done⟩ := run_bind_ok _ _ _ _ _ done
  obtain ⟨_, _, _, done⟩ := run_bind_ok _ _ _ _ _ done
  cases done
  rfl

-- p2pm_send_uint32 has never returned 0.
theorem join_one_ring_fails (setting : JoinSetting n) (state final : Joining n) (result : P2pmOpcodes)
    (done : (p2pmJoinOneRing setting).run state = .ok (result, final)) : result = .failure := by
  obtain ⟨_, _, _, done⟩ := run_bind_ok _ _ _ _ _ done
  rw [if_pos (by decide)] at done
  cases done
  rfl

theorem join_commits_successor (setting : JoinSetting n) (state final : Joining n)
    (done : (joinCommits setting).run state = .ok (.success, final)) :
    final.node.nodeList.successor = state.node.nodeList.successor := by
  obtain ⟨live, tried, asked, done⟩ := run_bind_ok _ _ _ _ _ done
  have first := try_live_list setting .predecessor state live tried asked
  cases live with
  | false => cases successor_connected_fails setting tried final _ done
  | true =>
      obtain ⟨_, _, got, done⟩ := run_bind_ok _ _ _ _ _ done
      cases got
      obtain ⟨list, middle, ran, done⟩ := run_bind_ok _ _ _ _ _ done
      have lifted : (tried.node.nodeList.firstSlots.bind fun list => .ok (list, tried)) = .ok (list, middle) := ran
      obtain ⟨_, _, same⟩ := bind_ok _ _ _ lifted
      cases same
      obtain ⟨_, sent, commits, done⟩ := run_bind_ok _ _ _ _ _ done
      have second := send_on_list setting .predecessor _ _ _ sent commits
      obtain ⟨word, acked, answers, done⟩ := run_bind_ok _ _ _ _ _ done
      have third := recv_on_list setting .predecessor sent word acked answers
      cases word with
      | none => cases successor_connected_fails setting acked final _ done
      | some word =>
          by_cases ack : word = P2pmReptypes.joinAck2.code
          · simp only [ack, ne_eq, not_true_eq_false, if_false] at done
            obtain ⟨_, told, tells, done⟩ := run_bind_ok _ _ _ _ _ done
            have fourth := send_on_list setting .successor _ _ _ told tells
            cases done
            exact congrArg P2pmNodeInfo.successor (fourth.trans (third.trans (second.trans first)))
          · simp only [ne_eq, ack, not_false_eq_true, if_true] at done
            cases successor_connected_fails setting acked final _ done

theorem join_requests_successor (setting : JoinSetting n) (state final : Joining n)
    (done : (joinRequests setting).run state = .ok (.success, final)) :
    final.node.nodeList.successor = state.node.nodeList.successor := by
  obtain ⟨_, asked, asks, done⟩ := run_bind_ok _ _ _ _ _ done
  have first := send_on_list setting .successor _ _ _ asked asks
  obtain ⟨word, acked, answers, done⟩ := run_bind_ok _ _ _ _ _ done
  have second := recv_on_list setting .successor asked word acked answers
  cases word with
  | none => cases successor_connected_fails setting acked final _ done
  | some word =>
      obtain ⟨_, _, got, done⟩ := run_bind_ok _ _ _ _ _ done
      cases got
      obtain ⟨r, counted, counts, done⟩ := run_bind_ok _ _ _ _ _ done
      have third := recv_on_list setting .successor _ r counted counts
      have listed : counted.node.nodeList = state.node.nodeList := third.trans (second.trans first)
      cases r with
      | none => cases successor_connected_fails setting counted final _ done
      | some r =>
          obtain ⟨_, _, got, done⟩ := run_bind_ok _ _ _ _ _ done
          cases got
          obtain ⟨_, _, got, done⟩ := run_bind_ok _ _ _ _ _ done
          cases got
          by_cases outOfRange : r = 0 ∨ r > counted.node.nodeList.rMax
          · simp only [outOfRange, if_true] at done
            cases successor_connected_fails setting _ final _ done
          · simp only [outOfRange, if_false] at done
            cases incoming : counted.node.successorSocket.inbox with
            | nil =>
                simp only [incoming] at done
                cases successor_connected_fails setting _ final _ done
            | cons part later =>
                simp only [incoming] at done
                obtain ⟨copied, middle, ran, done⟩ := run_bind_ok _ _ _ _ _ done
                obtain ⟨_, _, same⟩ := bind_ok _ _ _ ran
                cases same
                obtain ⟨_, set, put, done⟩ := run_bind_ok _ _ _ _ _ done
                cases put
                have kept : counted.node.nodeList.successor = state.node.nodeList.successor := by rw [listed]
                exact (join_commits_successor setting _ final done).trans kept

theorem join_acked_address (setting : JoinSetting n) (state final : Joining n)
    (done : (joinAcked setting).run state = .ok (.success, final)) :
    final.node.nodeList.successor.length + 1 = maxIdLen := by
  obtain ⟨_, _, got, done⟩ := run_bind_ok _ _ _ _ _ done
  cases got
  obtain ⟨⟨received, inbox⟩, _, ran, done⟩ := run_bind_ok _ _ _ _ _ done
  obtain ⟨_, _, same⟩ := bind_ok _ _ _ ran
  cases same
  obtain ⟨_, _, put, done⟩ := run_bind_ok _ _ _ _ _ done
  cases put
  cases received with
  | missing => cases predecessor_connected_fails _ final _ done
  | freed => cases done
  | str chars =>
      by_cases whole : chars.length + 1 = maxIdLen
      · simp only [whole, ne_eq, not_true_eq_false, if_false] at done
        obtain ⟨_, _, got, done⟩ := run_bind_ok _ _ _ _ _ done
        cases got
        obtain ⟨list, _, ran, done⟩ := run_bind_ok _ _ _ _ _ done
        obtain ⟨_, _, same⟩ := bind_ok _ _ _ ran
        cases same
        obtain ⟨_, told, put, done⟩ := run_bind_ok _ _ _ _ _ done
        cases put
        obtain ⟨accepted, connected, connects, done⟩ := run_bind_ok _ _ _ _ _ done
        have first := connect_on_list setting .successor chars _ accepted connected connects
        cases accepted with
        | false => cases predecessor_connected_fails connected final _ done
        | true =>
            obtain ⟨live, tried, tries, done⟩ := run_bind_ok _ _ _ _ _ done
            have second := try_live_list setting .successor connected live tried tries
            cases live with
            | false => cases successor_connected_fails setting tried final _ done
            | true =>
                have third := join_requests_successor setting tried final done
                rw [third, second, first]
                exact whole
      · simp only [ne_eq, whole, not_false_eq_true, if_true] at done
        cases done

-- Whatever rt may hold: memcpy reads P2PM_MAX_ID_LEN bytes of the successor's address.
theorem joined_address_fills (setting : JoinSetting n) (state final : Joining n)
    (done : (p2pmJoin setting).run state = .ok (.success, final)) : final.node.nodeList.successor.length + 1 = maxIdLen := by
  obtain ⟨_, _, got, done⟩ := run_bind_ok _ _ _ _ _ done
  cases got
  by_cases joining : state.node.currentStatus = .joining
  · simp only [joining, ne_eq, not_true_eq_false, if_false] at done
    obtain ⟨_, _, _, done⟩ := run_bind_ok _ _ _ _ _ done
    obtain ⟨live, tried, _, done⟩ := run_bind_ok _ _ _ _ _ done
    cases live with
    | false => cases predecessor_connected_fails tried final _ done
    | true =>
        obtain ⟨_, _, _, done⟩ := run_bind_ok _ _ _ _ _ done
        obtain ⟨word, answered, _, done⟩ := run_bind_ok _ _ _ _ _ done
        cases word with
        | none => cases predecessor_connected_fails answered final _ done
        | some word =>
            by_cases one : word = P2pmReptypes.getContactedOneRing.code
            · simp only [one, if_true] at done
              cases join_one_ring_fails setting answered final _ done
            · by_cases nack : word = P2pmReptypes.getNack.code
              · simp only [nack, if_true] at done
                cases done
              · by_cases ack : word = P2pmReptypes.getAck.code
                · simp only [ack, if_false, not_true_eq_false] at done
                  exact join_acked_address setting answered final done
                · simp only [one, nack, ack, if_false, not_false_eq_true, if_true] at done
                  cases predecessor_connected_fails answered final _ done
  · simp only [ne_eq, joining, not_false_eq_true, if_true] at done
    cases done

-- No newcomer is ever inserted, whatever the ring is like. p2pm_join ends where it began; had rt been P2PM_PONG_REP all along, it
-- would succeed only behind a node whose address leaves no room for its NUL in less than P2PM_MAX_ID_LEN bytes.
theorem join_never_inserts [NeZero n] (setting : JoinSetting n) (start : Joining n) (p : Fin n) (newcomer : Newcomer setting start p) :
    ¬ JoinInserts setting start p ∧
      (∀ rt, rt start.tries ≠ P2pmReptypes.pongRep.code →
        ∃ final, (p2pmJoin { setting with rt := rt }).run start = .ok (.failure, final) ∧ final.node = start.node ∧
          final.ring = start.ring) ∧
      ∀ rt final, (p2pmJoin { setting with rt := rt }).run start = .ok (.success, final) →
        final.node.nodeList.successor.length + 1 = maxIdLen := by
  have gives (rt : Nat → UInt32) (stray : rt start.tries ≠ P2pmReptypes.pongRep.code) :=
    join_gives_up { setting with rt := rt } start p
      ⟨newcomer.joining, newcomer.predecessor, newcomer.stranger, newcomer.predecessorUnused, newcomer.successorUnused, newcomer.opened,
        newcomer.accepted⟩ stray
  refine ⟨fun claim => ?_, gives, fun rt final done => joined_address_fills _ _ final done⟩
  obtain ⟨_, fails, _⟩ := gives (fun _ => 0) (by decide)
  obtain ⟨_, succeeds, _⟩ := claim fun _ => 0
  rw [fails] at succeeds
  cases succeeds

def sampleMemberEnv (i : Fin 2) : P2pmEnv :=
  { sampleP2pmEnv with endpoint := (sampleEndpoint i).chars, clean := (sampleEndpoint i).clean, short := (sampleEndpoint i).short }

def sampleSetting : JoinSetting 2 where
  env := sampleP2pmEnv
  identity := fun _ => [49]
  members := sampleMemberEnv
  rt := fun _ => 0

def sampleMember (i : Fin 2) : P2pm :=
  { sampleP2pm with
    nodeList :=
      { (sampleRing.nodes i).nodeList with
        predecessor := (sampleEndpoint i.rev).chars, successor := (sampleEndpoint i.rev).chars
        tempPredecessor := [], tempSuccessor := [] } }

def sampleNewcomer : P2pm :=
  { sampleP2pm with
    nodeList :=
      { successorList := List.replicate 512 0, r := 0, rMax := 2, predecessor := [65], successor := [], tempPredecessor := []
        tempSuccessor := [] }
    currentStatus := .joining
    predecessorSocket := zmqSocket 0
    successorSocket := zmqSocket 1 }

def sampleJoining : Joining 2 := { node := sampleNewcomer, ring := sampleMember, tries := 0 }

theorem sample_newcomer : Newcomer sampleSetting sampleJoining 0 where
  joining := rfl
  predecessor := rfl
  stranger := by decide
  predecessorUnused := ⟨rfl, rfl⟩
  successorUnused := ⟨rfl, rfl⟩
  opened := rfl
  accepted := fun _ => rfl

theorem sample_neighbours : ∀ i : Fin 2, i.rev = i - 1 ∧ i.rev = i + 1 := by decide

theorem sample_gathered : Gathered sampleSetting sampleJoining 2 sampleEndpoint where
  named := fun _ => rfl
  distinct := by
    intro i j same
    have chars := congrArg (fun endpoint : Endpoint => endpoint.chars) same
    match i, j with
    | 0, 0 => rfl
    | 1, 1 => rfl
    | 0, 1 => exact absurd chars (by decide)
    | 1, 0 => exact absurd chars (by decide)
  serving := fun _ => rfl
  successor := fun i => congrArg (fun j => (sampleEndpoint j).chars) (sample_neighbours i).2
  predecessor := fun i => congrArg (fun j => (sampleEndpoint j).chars) (sample_neighbours i).1
  lists := sample_ring_follows
  still := fun _ => ⟨rfl, rfl, rfl⟩

theorem join_never_inserts_sample : ¬ JoinInserts sampleSetting sampleJoining 0 ∧
    ∃ final, (p2pmJoin sampleSetting).run sampleJoining = .ok (.failure, final) ∧ final.ring = sampleJoining.ring := by
  obtain ⟨never, gives, _⟩ := join_never_inserts sampleSetting sampleJoining 0 sample_newcomer
  obtain ⟨final, fails, _, ring⟩ := gives (fun _ => 0) (by decide)
  exact ⟨never, final, fails, ring⟩

-- A ring of two members, and a third node whose rt is 0.
theorem newcomer_turned_away : ¬ ∀ (setting : JoinSetting 2) (start : Joining 2) (rMax : UInt32) (endpoint : Fin 2 → Endpoint) (p : Fin 2),
    Gathered setting start rMax endpoint → Newcomer setting start p → JoinInserts setting start p := by
  intro claim
  obtain ⟨final, succeeds, _⟩ := claim sampleSetting sampleJoining 2 sampleEndpoint 0 sample_gathered sample_newcomer fun _ => 0
  obtain ⟨other, fails, _⟩ := join_gives_up { sampleSetting with rt := fun _ => 0 } sampleJoining 0 sample_newcomer (by decide)
  rw [fails] at succeeds
  cases succeeds

end Synergy
