import Synergy.Boundaries
import Synergy.Ring

set_option autoImplicit false

namespace Synergy

-- SYNC_SLIST behind its command.
def syncParts (host : HostOrder) (ttl nr : UInt32) (list : Bytes) : List MsgPart :=
  [wordPart host ttl true, wordPart host nr true, ⟨list.map some, false⟩]

-- Of a ring in which a list is replicated backwards. flight is what has been sent and not delivered yet; received is ghost, the
-- TTL that each node has been given last, and handled counts the deliveries.
structure Wave (n : Nat) where
  nodes : Fin n → P2pm
  flight : List (Fin n × List MsgPart)
  received : Fin n → UInt32
  handled : Nat

-- A delivery, or what a pass of the loop does for the predecessor, by what has come from it.
inductive WaveStep (n : Nat) where
  | delivers (index : Nat)
  | passes (i : Fin n) (readable : Bool) (arrived : List MsgPart)

variable {n : Nat}

def P2pm.given (node : P2pm) (parts : List MsgPart) : P2pm := { node with serverInbox := parts ++ node.serverInbox }

def P2pm.polled (node : P2pm) (readable : Bool) (arrived : List MsgPart) : P2pm :=
  { node with
    revents := { node.revents with predecessor := readable }
    predecessorSocket := { node.predecessorSocket with inbox := node.predecessorSocket.inbox ++ arrived } }

def predecessorPass (env : P2pmEnv) (node : P2pm) : Except Stop P2pm := do
  let next ← predecessorSocketHandler env env.depth node
  return { next with serverTriggeredActions := .noXpv }

-- Of the messages to a predecessor SYNC_SLIST alone has four parts.
def syncSent (dest : Fin n) : List MsgPart → List (Fin n × List MsgPart)
  | [_, ttl, nr, list] => [(dest, [ttl, nr, list])]
  | _ => []

def ttlOf (env : P2pmEnv) (parts : List MsgPart) : UInt32 :=
  match recvWord env.host parts with
  | .ok (some ttl, _) => ttl
  | _ => env.strayWord

def Wave.step [NeZero n] (env : Fin n → P2pmEnv) (wave : Wave n) : WaveStep n → Option (Wave n)
  | .delivers index =>
      match wave.flight[index]? with
      | none => none
      | some (dest, parts) =>
          match p2pmSyncSlistHandler (env dest) ((wave.nodes dest).given parts) with
          | .error _ => none
          | .ok (_, node) => some {
              nodes := Function.update wave.nodes dest node
              flight := wave.flight.eraseIdx index
              received := Function.update wave.received dest (ttlOf (env dest) parts)
              handled := wave.handled + 1 }
  | .passes i readable arrived =>
      match predecessorPass (env i) ((wave.nodes i).polled readable arrived) with
      | .error _ => none
      | .ok node => some { wave with
          nodes := Function.update wave.nodes i node
          flight := wave.flight ++ syncSent (i - 1) (node.predecessorSent.drop (wave.nodes i).predecessorSent.length) }

-- The list that is delivered is copied by the first t - 1 nodes that handle it and left alone by the next, which is the last;
-- what a node sends on has a smaller TTL than what it was given.
def Wave.Rule [NeZero n] (env : Fin n → P2pmEnv) (t : UInt32) (wave : Wave n) : WaveStep n → Prop
  | .delivers index => ∀ dest parts, wave.flight[index]? = some (dest, parts) →
      wave.handled + 1 ≤ max t.toNat 1 ∧
        ∃ host ttl nr list code after, parts = syncParts host ttl nr list ∧
          p2pmSyncSlistHandler (env dest) ((wave.nodes dest).given parts) = .ok (code, after) ∧
          if wave.handled + 1 < t.toNat then
            p2pmNiCopySuccessorList (wave.nodes dest).nodeList.toNodeInfo list nr = .ok after.nodeList.toNodeInfo
          else after.nodeList = (wave.nodes dest).nodeList
  | .passes i readable arrived => ∀ next, wave.step env (.passes i readable arrived) = some next →
      ∀ transfer ∈ next.flight.drop wave.flight.length, ttlOf (env transfer.1) transfer.2 < wave.received i

-- The wait for the answer to a SYNC_SLIST is over.
def P2pm.Repeats (env : P2pmEnv) (node : P2pm) (readable : Bool) : Prop :=
  readable = false ∧ env.clock node.ticks - node.predecessorLastpollTime > env.wait.toNat ∧
    (node.predecessorSocketExpectedActions = .relayBackwards ∨ node.predecessorSocketExpectedActions = .replicateBackwards)

-- Every node has room for a list it has to copy, none for one with a TTL of 0, and nothing is sent again.
def Wave.Guard (env : Fin n → P2pmEnv) (t : UInt32) (wave : Wave n) : WaveStep n → Prop
  | .delivers index => ∀ dest host ttl nr list, wave.flight[index]? = some (dest, syncParts host ttl nr list) →
      (t = 0 → (wave.nodes dest).nodeList.rMax < nr) ∧ (1 < ttl → nr ≤ (wave.nodes dest).nodeList.rMax)
  | .passes i readable _ => ¬ (wave.nodes i).Repeats (env i) readable

-- A list of r_max slots whose first r are in use.
structure NodeInfo.Valid (info : NodeInfo) : Prop where
  few : info.rMax.toNat < 2 ^ 24
  size : info.successorList.length = info.rMax.toNat * maxIdLen
  positive : 1 ≤ info.r.toNat
  bounded : info.r.toNat ≤ info.rMax.toNat
  first : (info.slot 0).length < maxIdLen

-- As a node with such a list sends it.
structure ValidSlist (nr : UInt32) (list : Bytes) : Prop where
  few : nr.toNat < 2 ^ 24
  size : list.length = nr.toNat * maxIdLen
  positive : 1 ≤ nr.toNat
  first : (cstr (Pieces.piece maxIdLen 0 list)).length < maxIdLen

-- A node that has not begun to replicate its list, and has none to relay.
structure P2pm.RelaysNone (node : P2pm) : Prop where
  server : node.serverTriggeredActions ≠ .relayBackwards ∧ node.serverTriggeredActions ≠ .replicateBackwards
  predecessor : node.predecessorTriggeredActions ≠ .relayBackwardsPinged ∧
    node.predecessorTriggeredActions ≠ .replicateBackwardsPinged

structure P2pm.Ready (node : P2pm) : Prop where
  valid : node.nodeList.toNodeInfo.Valid
  named : 0 ∈ node.clientid

-- One SYNC_SLIST is on its way.
structure Wave.Begins (t : UInt32) (wave : Wave n) : Prop where
  ready : ∀ i, (wave.nodes i).Ready
  quiet : ∀ i, (wave.nodes i).RelaysNone
  flight : ∃ dest host nr list, wave.flight = [(dest, syncParts host t nr list)] ∧ ValidSlist nr list
  none_ : wave.handled = 0

theorem filled_whole (env : P2pmEnv) (list : Bytes) : filled env list.length (list.map some) = list := by
  obtain ⟨rest, same⟩ := filled_front env list.length list le_rfl
  have length := congrArg List.length same
  rw [filled_length, List.length_append] at length
  have none_ : rest = [] := List.length_eq_zero_iff.mp (by omega)
  rw [same, none_, List.append_nil]

theorem ttl_goes_on (ttl : UInt32) : ttl - 1 > 0 ↔ ttl ≠ 1 := by
  rw [gt_iff_lt, UInt32.pos_iff_ne_zero]
  constructor
  · rintro more rfl
    exact more rfl
  · intro more zero
    have same := UInt32.sub_add_cancel ttl 1
    rw [zero] at same
    exact more same.symm

theorem copy_valid (info : NodeInfo) (nr : UInt32) (list : Bytes) (valid : info.Valid) (sent : ValidSlist nr list)
    (room : nr ≤ info.rMax) :
    ∃ copied, p2pmNiCopySuccessorList info list nr = .ok copied ∧ copied.Valid ∧ copied.rMax = info.rMax ∧
      copied.r.toNat = min (nr.toNat + 1) info.rMax.toNat := by
  have within := UInt32.le_iff_toNat_le.mp room
  obtain ⟨copied, done, most, size, count, first, _⟩ :=
    copy_successor_list info list nr valid.few valid.size sent.positive within sent.size sent.first
  have some_ := sent.positive
  refine ⟨copied, done, ⟨?_, ?_, by omega, ?_, ?_⟩, most, count⟩
  · rw [most]
    exact valid.few
  · rw [size, most]
    exact valid.size
  · rw [most]
    omega
  · rw [first]
    exact valid.first

theorem sync_handles (env : P2pmEnv) (node : P2pm) (host : HostOrder) (ttl nr : UInt32) (list : Bytes) (ready : node.Ready)
    (sent : ValidSlist nr list) :
    ∃ code after, p2pmSyncSlistHandler env (node.given (syncParts host ttl nr list)) = .ok (code, after) ∧ after.Ready ∧
      after.predecessorTriggeredActions = node.predecessorTriggeredActions ∧ after.nodeList.rMax = node.nodeList.rMax ∧
      if nr ≤ node.nodeList.rMax ∧ ttl ≠ 1 then
        p2pmNiCopySuccessorList node.nodeList.toNodeInfo list nr = .ok after.nodeList.toNodeInfo ∧
          after.nodeList.r.toNat = min (nr.toNat + 1) node.nodeList.rMax.toNat ∧ after.lastTtl = ttl - 1 ∧
          after.serverTriggeredActions = .relayBackwards
      else after.nodeList = node.nodeList ∧ after.serverTriggeredActions = node.serverTriggeredActions := by
  have named : sendClientidPart (node.given (syncParts host ttl nr list)) true =
      .ok { node.given (syncParts host ttl nr list) with
        serverSent := node.serverSent ++ [⟨(cstr node.clientid).map some, true⟩] } := if_pos ready.named
  have first : recvWord env.host (node.given (syncParts host ttl nr list)).serverInbox =
      .ok (some ttl, wordPart host nr true :: ⟨list.map some, false⟩ :: node.serverInbox) := recv_word_part host env.host ttl true _
  have second := recv_word_part host env.host nr true (⟨list.map some, false⟩ :: node.serverInbox)
  have nonzero : nr ≠ 0 := by
    intro zero
    have some_ := sent.positive
    rw [zero] at some_
    cases some_
  have buffer : filled env (shiftId nr).toNat (list.map some) = list := by
    rw [shift_id_bytes nr sent.few, ← sent.size, filled_whole]
  unfold p2pmSyncSlistHandler
  rw [named]
  dsimp only [bind, Except.bind]
  rw [first]
  dsimp only
  rw [second]
  dsimp only [P2pm.given]
  by_cases room : nr ≤ node.nodeList.rMax
  · have accepted : ¬ (nr = 0 ∨ nr > node.nodeList.rMax) := by
      rintro (zero | above)
      · exact nonzero zero
      · exact absurd above (UInt32.not_lt.mpr room)
    simp only [if_neg accepted, buffer]
    by_cases goes : ttl ≠ 1
    · obtain ⟨copied, done, valid, most, count⟩ := copy_valid node.nodeList.toNodeInfo nr list ready.valid sent room
      have both : nr ≤ node.nodeList.rMax ∧ ttl ≠ 1 := ⟨room, goes⟩
      simp only [if_pos ((ttl_goes_on ttl).mpr goes), if_pos both, done]
      exact ⟨_, _, rfl, ⟨valid, ready.named⟩, rfl, most, rfl, count, rfl, rfl⟩
    · have last : ¬ (nr ≤ node.nodeList.rMax ∧ ttl ≠ 1) := fun both => goes both.2
      have ends : ¬ ttl - 1 > 0 := fun more => goes ((ttl_goes_on ttl).mp more)
      simp only [if_neg ends, if_neg last]
      exact ⟨_, _, rfl, ⟨ready.valid, ready.named⟩, rfl, rfl, rfl, rfl⟩
  · have above : nr > node.nodeList.rMax := UInt32.not_le.mp room
    have last : ¬ (nr ≤ node.nodeList.rMax ∧ ttl ≠ 1) := fun both => room both.1
    simp only [above, or_true, if_true, if_neg last]
    exact ⟨_, _, rfl, ⟨ready.valid, ready.named⟩, rfl, rfl, rfl, rfl⟩

def ListLeft (env : P2pmEnv) (old next : P2pm) : Prop :=
  next.nodeList.successorList = old.nodeList.successorList ∨
    writeAddress old.nodeList.successorList env.endpoint = .ok next.nodeList.successorList

theorem answered_list (env : P2pmEnv) (node next : P2pm) (done : predecessorAnswered env node = .ok next) : ListLeft env node next := by
  unfold predecessorAnswered at done
  split at done
  · cases done
    exact Or.inl rfl
  · obtain ⟨told, sent, done⟩ := bind_ok _ _ _ done
    obtain ⟨list, _, same⟩ := send_slist_sent env node told _ sent
    rw [same] at done
    cases done
    exact Or.inl rfl
  · obtain ⟨told, sent, done⟩ := bind_ok _ _ _ done
    obtain ⟨list, _, same⟩ := send_slist_sent env node told _ sent
    rw [same] at done
    cases done
    exact Or.inl rfl
  · cases done
    exact Or.inl rfl

theorem predecessor_handler_list (env : P2pmEnv) (depth : Nat) (node next : P2pm)
    (done : predecessorSocketHandler env depth node = .ok next) : ListLeft env node next := by
  induction depth generalizing node with
  | zero => cases done
  | succ depth ih =>
      have failed : ∀ middle : P2pm, predecessorFailed env middle = .ok next →
          middle.nodeList.successorList = node.nodeList.successorList → ListLeft env node next := by
        intro middle done same
        unfold predecessorFailed at done
        split at done
        · cases done
          exact Or.inl same
        · obtain ⟨list, written, done⟩ := bind_ok _ _ _ done
          cases done
          refine Or.inr ?_
          rw [← same]
          exact written
      have kept : ∀ middle : P2pm, ListLeft env middle next →
          middle.nodeList.successorList = node.nodeList.successorList → ListLeft env node next := by
        intro middle left_ same
        unfold ListLeft at left_ ⊢
        rwa [same] at left_
      unfold predecessorSocketHandler at done
      split at done
      · obtain ⟨⟨word, inbox⟩, _, done⟩ := bind_ok _ _ _ done
        dsimp only [zclockMono] at done
        have answered : ∀ middle : P2pm, (if word.getD env.strayWord = P2pmReptypes.pongRep.code then
            predecessorAnswered env middle else pure (backwardsDone middle)) = .ok next →
            middle.nodeList.successorList = node.nodeList.successorList → ListLeft env node next := by
          intro middle done same
          split at done
          · exact kept middle (answered_list env middle next done) same
          · cases done
            exact Or.inl same
        split at done
        · exact answered _ done rfl
        · exact answered _ done rfl
        · exact answered _ done rfl
        · cases done
          exact Or.inl rfl
        · cases done
          exact Or.inl rfl
        · cases done
          exact Or.inl rfl
      · dsimp only [zclockMono] at done
        split at done
        · split at done
          · cases done
            exact Or.inl rfl
          · cases done
            exact Or.inl rfl
          · exact failed _ done rfl
          · exact failed _ done rfl
          · exact kept _ (ih _ done) rfl
          · exact kept _ (ih _ done) rfl
          · cases done
            exact Or.inl rfl
        · cases done
          refine Or.inl ?_
          unfold predecessorIdle
          dsimp only [zclockMono]
          split
          · rfl
          · split
            · rfl
            · rfl

theorem write_address_first (list written chars : Bytes) (clean : NulFree chars) (short : chars.length < maxIdLen)
    (done : writeAddress list chars = .ok written) : cstr (Pieces.piece maxIdLen 0 written) = chars := by
  unfold writeAddress at done
  split at done
  · cases done
  · cases done
    obtain ⟨rest, room⟩ : ∃ rest, maxIdLen = chars.length + (rest + 1) := ⟨maxIdLen - chars.length - 1, by omega⟩
    rw [Pieces.piece, Nat.zero_mul, List.drop_zero, room, List.take_length_add_append, List.take_succ_cons]
    exact cstr_terminated chars _ clean

theorem predecessor_handler_ready (env : P2pmEnv) (depth : Nat) (node next : P2pm) (ready : node.Ready)
    (done : predecessorSocketHandler env depth node = .ok next) : next.Ready := by
  have frame := predecessor_handler_frame env depth node next done
  have r : next.nodeList.r = node.nodeList.r := by rw [frame.same]
  have most : next.nodeList.rMax = node.nodeList.rMax := by rw [frame.same]
  have named : next.clientid = node.clientid := by rw [frame.same]
  refine ⟨⟨?_, ?_, ?_, ?_, ?_⟩, ?_⟩
  · rw [most]
    exact ready.valid.few
  · rw [frame.length, most]
    exact ready.valid.size
  · rw [r]
    exact ready.valid.positive
  · rw [r, most]
    exact ready.valid.bounded
  · rcases predecessor_handler_list env depth node next done with same | written
    · rw [NodeInfo.slot, same]
      exact ready.valid.first
    · rw [NodeInfo.slot, write_address_first _ _ env.endpoint env.clean env.short written]
      exact env.short
  · rw [named]
    exact ready.named

-- A node whose list nobody has begun to replicate.
def P2pm.StartsNone (node : P2pm) : Prop :=
  node.serverTriggeredActions ≠ .replicateBackwards ∧ node.predecessorTriggeredActions ≠ .replicateBackwardsPinged

-- What a call of the predecessor's handler sends: a ping, a search for the head, nothing, or the list it has been asked to relay.
inductive P2pm.Sends (env : P2pmEnv) (node next : P2pm) : Prop where
  | little (parts : List MsgPart) (few : parts.length ≤ 1) (sent : next.predecessorSent = node.predecessorSent ++ parts)
      (quiet : node.RelaysNone → next.RelaysNone)
  | relays (asked : node.predecessorTriggeredActions = .relayBackwardsPinged) (quiet : next.RelaysNone) (list : Bytes)
      (valid : ValidSlist node.nodeList.r list)
      (sent : next.predecessorSent = node.predecessorSent ++
        wordPart env.host P2pmReqtypes.syncSlist.code true :: syncParts env.host node.lastTtl node.nodeList.r list)

theorem first_slots_valid (info : NodeInfo) (part : MsgPart) (valid : info.Valid) (done : info.firstSlots = .ok part) :
    ∃ list, part = ⟨list.map some, false⟩ ∧ ValidSlist info.r list := by
  have bounded := valid.bounded
  have few := valid.few
  have bytes := shift_id_bytes info.r (by omega)
  have room : info.r.toNat * maxIdLen ≤ info.successorList.length := by
    rw [valid.size]
    exact Nat.mul_le_mul_right _ bounded
  unfold NodeInfo.firstSlots at done
  dsimp only at done
  rw [bytes, if_neg (by omega)] at done
  cases done
  refine ⟨_, rfl, by omega, ?_, valid.positive, ?_⟩
  · rw [List.length_take, Nat.min_eq_left room]
  · have first : (0 + 1) * maxIdLen ≤ info.r.toNat * maxIdLen := Nat.mul_le_mul_right _ valid.positive
    rw [Pieces.piece_of_take _ _ _ _ first]
    exact valid.first

theorem relay_answered_sends (env : P2pmEnv) (node next : P2pm) (ready : node.Ready) (starts : node.StartsNone)
    (done : predecessorAnswered env node = .ok next) : node.Sends env next ∧ next.StartsNone := by
  unfold predecessorAnswered at done
  split at done
  · cases done
    exact ⟨.little _ le_rfl rfl fun quiet => ⟨quiet.server, by simp⟩, starts.1, by simp⟩
  · rename_i replicates
    exact absurd replicates starts.2
  · rename_i asked
    obtain ⟨told, sent, done⟩ := bind_ok _ _ _ done
    obtain ⟨part, first, same⟩ := send_slist_sent env node told _ sent
    obtain ⟨list, whole, valid⟩ := first_slots_valid _ part ready.valid first
    rw [same, whole] at done
    cases done
    exact ⟨.relays asked ⟨by simp, by simp⟩ list valid rfl, by simp, by simp⟩
  · cases done
    exact ⟨.little [] (Nat.zero_le 1) (List.append_nil _).symm fun quiet => ⟨quiet.server, by simp⟩, starts.1, by simp⟩

theorem idle_sends (env : P2pmEnv) (node : P2pm) (starts : node.StartsNone) :
    node.Sends env (predecessorIdle env node) ∧ (predecessorIdle env node).StartsNone := by
  unfold predecessorIdle
  dsimp only [zclockMono]
  split
  · exact ⟨.little [] (Nat.zero_le 1) (List.append_nil _).symm fun quiet => ⟨quiet.server, quiet.predecessor⟩, starts⟩
  · split
    · rename_i pinged asked
      -- The ping goes out for what the server has triggered.
      have other : pinged ≠ .replicateBackwardsPinged := by
        rintro rfl
        have server := starts.1
        cases triggered : node.serverTriggeredActions with
        | replicateBackwards => exact server triggered
        | _ =>
            rw [triggered] at asked
            cases asked
      have relay : node.RelaysNone → pinged ≠ .relayBackwardsPinged := by
        rintro quiet rfl
        have server := quiet.server.1
        cases triggered : node.serverTriggeredActions with
        | relayBackwards => exact server triggered
        | _ =>
            rw [triggered] at asked
            cases asked
      exact ⟨.little [pingPart env] le_rfl rfl fun quiet => ⟨by simp [pingPredecessor, predecessorSend, zclockMono], relay quiet, other⟩,
        by simp [pingPredecessor, predecessorSend, zclockMono], other⟩
    · exact ⟨.little [] (Nat.zero_le 1) (List.append_nil _).symm fun quiet => ⟨quiet.server, quiet.predecessor⟩, starts⟩

theorem failed_sends (env : P2pmEnv) (node next : P2pm) (starts : node.StartsNone) (done : predecessorFailed env node = .ok next) :
    node.Sends env next ∧ next.StartsNone := by
  unfold predecessorFailed at done
  split at done
  · cases done
    exact ⟨.little [] (Nat.zero_le 1) (List.append_nil _).symm fun quiet => ⟨by simp, quiet.predecessor⟩, by simp, starts.2⟩
  · obtain ⟨list, _, done⟩ := bind_ok _ _ _ done
    cases done
    exact ⟨.little [] (Nat.zero_le 1) (List.append_nil _).symm fun _ => ⟨by simp, by simp⟩, by simp, by simp⟩

structure P2pm.RelaysLike (node middle : P2pm) : Prop where
  r : middle.nodeList.r = node.nodeList.r
  ttl : middle.lastTtl = node.lastTtl
  sent : middle.predecessorSent = node.predecessorSent
  predecessor : middle.predecessorTriggeredActions = node.predecessorTriggeredActions
  server : middle.serverTriggeredActions = node.serverTriggeredActions

theorem sends_before (env : P2pmEnv) (node middle next : P2pm) (sends : middle.Sends env next) (same : node.RelaysLike middle) :
    node.Sends env next := by
  obtain ⟨r, ttl, before, triggered, server⟩ := same
  cases sends with
  | little parts few sent quiet =>
      rw [before] at sent
      exact .little parts few sent fun still => quiet ⟨server.symm ▸ still.server, triggered.symm ▸ still.predecessor⟩
  | relays asked quiet list valid sent =>
      rw [before, r, ttl] at sent
      rw [r] at valid
      rw [triggered] at asked
      exact .relays asked quiet list valid sent

theorem readable_sends (env : P2pmEnv) (node next : P2pm) (ready : node.Ready) (starts : node.StartsNone)
    (done : predecessorReadable env node = .ok next) : node.Sends env next ∧ next.StartsNone := by
  obtain ⟨⟨word, inbox⟩, _, done⟩ := bind_ok _ _ _ done
  dsimp only [zclockMono] at done
  have ended : ∀ middle : P2pm, middle.predecessorSent = node.predecessorSent →
      middle.predecessorTriggeredActions = node.predecessorTriggeredActions →
      node.Sends env (backwardsDone middle) ∧ (backwardsDone middle).StartsNone := by
    intro middle sent triggered
    refine ⟨.little [] (Nat.zero_le 1) (sent.trans (List.append_nil _).symm) fun quiet => ⟨by simp [backwardsDone], ?_⟩,
      by simp [backwardsDone], ?_⟩
    · exact triggered.symm ▸ quiet.predecessor
    · exact triggered.symm ▸ starts.2
  have answered : ∀ middle : P2pm, (if word.getD env.strayWord = P2pmReptypes.pongRep.code then
      predecessorAnswered env middle else pure (backwardsDone middle)) = .ok next → middle.Ready → middle.StartsNone →
      node.RelaysLike middle → node.Sends env next ∧ next.StartsNone := by
    intro middle done ready starts same
    split at done
    · obtain ⟨sends, none_⟩ := relay_answered_sends env middle next ready starts done
      exact ⟨sends_before env node middle next sends same, none_⟩
    · cases done
      exact ended middle same.sent same.predecessor
  split at done
  · exact answered _ done ⟨ready.valid, ready.named⟩ starts ⟨rfl, rfl, rfl, rfl, rfl⟩
  · exact answered _ done ⟨ready.valid, ready.named⟩ starts ⟨rfl, rfl, rfl, rfl, rfl⟩
  · exact answered _ done ⟨ready.valid, ready.named⟩ starts ⟨rfl, rfl, rfl, rfl, rfl⟩
  · cases done
    exact ended _ rfl rfl
  · cases done
    exact ended _ rfl rfl
  · cases done
    exact ⟨.little [] (Nat.zero_le 1) (List.append_nil _).symm fun quiet => ⟨quiet.server, quiet.predecessor⟩, starts⟩

theorem predecessor_handler_sends (env : P2pmEnv) (depth : Nat) (node next : P2pm) (ready : node.Ready) (starts : node.StartsNone)
    (once : ¬ node.Repeats env node.revents.predecessor) (done : predecessorSocketHandler env depth node = .ok next) :
    node.Sends env next ∧ next.StartsNone := by
  cases depth with
  | zero => cases done
  | succ depth =>
      have pinged : ∀ (middle : P2pm) (expected : P2pmExpectedActions), middle.predecessorSent = node.predecessorSent →
          middle.predecessorTriggeredActions = node.predecessorTriggeredActions →
          middle.serverTriggeredActions = node.serverTriggeredActions →
          node.Sends env (pingPredecessor env middle expected) ∧ (pingPredecessor env middle expected).StartsNone := by
        intro middle expected sent triggered server
        refine ⟨.little [pingPart env] le_rfl ?_ fun quiet => ⟨?_, ?_⟩, ?_, ?_⟩
        · exact congrArg (· ++ [pingPart env]) sent
        · exact server.symm ▸ quiet.server
        · exact triggered.symm ▸ quiet.predecessor
        · exact server.symm ▸ starts.1
        · exact triggered.symm ▸ starts.2
      have failed : ∀ middle : P2pm, predecessorFailed env middle = .ok next → middle.StartsNone →
          node.RelaysLike middle → node.Sends env next ∧ next.StartsNone := by
        intro middle done starts same
        obtain ⟨sends, none_⟩ := failed_sends env middle next starts done
        exact ⟨sends_before env node middle next sends same, none_⟩
      unfold predecessorSocketHandler at done
      split at done
      · exact readable_sends env node next ready starts done
      · rename_i unread
        dsimp only [zclockMono] at done
        split at done
        · rename_i overdue
          split at done
          · cases done
            exact pinged _ _ rfl rfl rfl
          · cases done
            exact pinged _ _ rfl rfl rfl
          · exact failed _ done starts ⟨rfl, rfl, rfl, rfl, rfl⟩
          · exact failed _ done starts ⟨rfl, rfl, rfl, rfl, rfl⟩
          · rename_i relays
            exact absurd ⟨by simpa using unread, overdue.1, Or.inl relays⟩ once
          · rename_i replicates
            exact absurd ⟨by simpa using unread, overdue.1, Or.inr replicates⟩ once
          · cases done
            exact ⟨.little [] (Nat.zero_le 1) (List.append_nil _).symm fun quiet => ⟨quiet.server, quiet.predecessor⟩, starts⟩
        · cases done
          obtain ⟨sends, none_⟩ := idle_sends env { node with ticks := node.ticks + 1 } starts
          exact ⟨sends_before env node _ _ sends ⟨rfl, rfl, rfl, rfl, rfl⟩, none_⟩

-- Where the wave is: under way, at a node that may still relay it, or over.
inductive Wave.Stage (t : UInt32) (wave : Wave n) : Prop where
  | flies (dest : Fin n) (host : HostOrder) (ttl nr : UInt32) (list : Bytes) (flight : wave.flight = [(dest, syncParts host ttl nr list)])
      (valid : ValidSlist nr list) (left_ : ttl.toNat + wave.handled = t.toNat) (some_ : t ≠ 0 → 1 ≤ ttl.toNat)
      (quiet : ∀ i, (wave.nodes i).RelaysNone)
  | waits (i : Fin n) (flight : wave.flight = []) (left_ : (wave.nodes i).lastTtl.toNat + wave.handled = t.toNat)
      (some_ : 1 ≤ (wave.nodes i).lastTtl.toNat) (received : (wave.nodes i).lastTtl < wave.received i)
      (quiet : ∀ j, j ≠ i → (wave.nodes j).RelaysNone)
  | over_ (flight : wave.flight = []) (quiet : ∀ i, (wave.nodes i).RelaysNone)

structure Wave.Goes (t : UInt32) (wave : Wave n) : Prop where
  ready : ∀ i, (wave.nodes i).Ready
  starts : ∀ i, (wave.nodes i).StartsNone
  stage : wave.Stage t

theorem ttl_of_parts (env : P2pmEnv) (host : HostOrder) (ttl nr : UInt32) (list : Bytes) : ttlOf env
    (syncParts host ttl nr list) = ttl := by
  unfold ttlOf syncParts
  rw [recv_word_part]

theorem pass_sends (env : P2pmEnv) (node next : P2pm) (readable : Bool) (arrived : List MsgPart) (ready : node.Ready)
    (starts : node.StartsNone) (once : ¬ node.Repeats env readable)
    (done : predecessorPass env (node.polled readable arrived) = .ok next) :
    next.Ready ∧ next.StartsNone ∧ next.lastTtl = node.lastTtl ∧ node.Sends env next := by
  obtain ⟨last, handled, done⟩ := bind_ok _ _ _ done
  cases done
  have same := (predecessor_handler_frame env env.depth _ last handled).same
  have after := predecessor_handler_ready env env.depth (node.polled readable arrived) last ⟨ready.valid, ready.named⟩ handled
  obtain ⟨sends, none_⟩ := predecessor_handler_sends env env.depth (node.polled readable arrived) last ⟨ready.valid, ready.named⟩ starts once
    handled
  have ttl : last.lastTtl = node.lastTtl := by
    rw [same]
    rfl
  refine ⟨⟨after.valid, after.named⟩, ⟨by simp, none_.2⟩, ttl, ?_⟩
  cases sends_before env node _ last sends ⟨rfl, rfl, rfl, rfl, rfl⟩ with
  | little parts few sent quiet => exact .little parts few sent fun still => ⟨by simp, (quiet still).predecessor⟩
  | relays asked quiet list valid sent => exact .relays asked ⟨by simp, quiet.predecessor⟩ list valid sent

theorem quiet_sends_little (env : P2pmEnv) (node next : P2pm) (quiet : node.RelaysNone) (sends : node.Sends env next) (dest : Fin n) :
    next.RelaysNone ∧ syncSent dest (next.predecessorSent.drop node.predecessorSent.length) = [] := by
  cases sends with
  | little parts few sent still =>
      refine ⟨still quiet, ?_⟩
      rw [sent, List.drop_left]
      match parts with
      | [] => rfl
      | [_] => rfl
  | relays asked => exact absurd asked quiet.predecessor.1

theorem Wave.Begins.goes (t : UInt32) (wave : Wave n) (begins : wave.Begins t) : wave.Goes t := by
  obtain ⟨dest, host, nr, list, flight, valid⟩ := begins.flight
  have positive : t ≠ 0 → 1 ≤ t.toNat := fun some_ => Nat.one_le_iff_ne_zero.mpr fun zero => some_ (UInt32.toNat_inj.mp zero)
  refine ⟨begins.ready, fun i => ⟨(begins.quiet i).server.2, (begins.quiet i).predecessor.2⟩, ?_⟩
  exact .flies dest host t nr list flight valid (by rw [begins.none_, Nat.add_zero]) positive begins.quiet

variable [NeZero n]

omit [NeZero n] in
theorem nodes_each (nodes : Fin n → P2pm) (i : Fin n) (node : P2pm) (good : P2pm → Prop) (here : good node)
    (elsewhere : ∀ j, j ≠ i → good (nodes j)) : ∀ j, good (Function.update nodes i node j) :=
  (Function.forall_update_iff nodes fun _ => good).mpr ⟨here, elsewhere⟩

theorem quiet_pass (env : Fin n → P2pmEnv) (wave next : Wave n) (i : Fin n) (readable : Bool) (arrived : List MsgPart)
    (ready : ∀ i, (wave.nodes i).Ready) (starts : ∀ i, (wave.nodes i).StartsNone)
    (once : ¬ (wave.nodes i).Repeats (env i) readable) (quiet : (wave.nodes i).RelaysNone)
    (taken : wave.step env (.passes i readable arrived) = some next) :
    next.flight = wave.flight ∧ next.handled = wave.handled ∧ next.received = wave.received ∧ (∀ j, (next.nodes j).Ready) ∧
      (∀ j, (next.nodes j).StartsNone) ∧ (∀ j, j ≠ i → next.nodes j = wave.nodes j) ∧ (next.nodes i).RelaysNone := by
  simp only [Wave.step] at taken
  split at taken
  · cases taken
  · rename_i node done
    obtain ⟨readied, none_, _, sends⟩ := pass_sends (env i) _ node readable arrived (ready i) (starts i) once done
    obtain ⟨still, nothing⟩ := quiet_sends_little (env i) _ node quiet sends (i - 1)
    cases taken
    refine ⟨by rw [nothing, List.append_nil], rfl, rfl, ?_, ?_, fun j other => ?_, ?_⟩
    · exact nodes_each wave.nodes i node _ readied fun j _ => ready j
    · exact nodes_each wave.nodes i node _ none_ fun j _ => starts j
    · exact Function.update_of_ne other _ _
    · simp only [Function.update_self]
      exact still

omit [NeZero n] in
theorem nodes_beside (nodes later : Fin n → P2pm) (i : Fin n) (good : Fin n → P2pm → Prop)
    (others : ∀ j, j ≠ i → later j = nodes j) (here : good i (later i)) (elsewhere : ∀ j, j ≠ i → good j (nodes j)) :
    ∀ j, good j (later j) := by
  intro j
  by_cases same : j = i
  · rw [same]
    exact here
  · rw [others j same]
    exact elsewhere j same

theorem pass_goes (env : Fin n → P2pmEnv) (t : UInt32) (wave next : Wave n) (i : Fin n) (readable : Bool) (arrived : List MsgPart)
    (goes : wave.Goes t) (once : ¬ (wave.nodes i).Repeats (env i) readable)
    (taken : wave.step env (.passes i readable arrived) = some next) :
    next.Goes t ∧ ∀ transfer ∈ next.flight.drop wave.flight.length, ttlOf (env transfer.1) transfer.2 < wave.received i := by
  have silent : next.flight = wave.flight →
      ∀ transfer ∈ next.flight.drop wave.flight.length, ttlOf (env transfer.1) transfer.2 < wave.received i := by
    intro same transfer member
    rw [same, List.drop_length] at member
    cases member
  have calm : ∀ quiet : (wave.nodes i).RelaysNone, next.flight = wave.flight ∧ next.handled = wave.handled ∧
      next.received = wave.received ∧ (∀ j, (next.nodes j).Ready) ∧ (∀ j, (next.nodes j).StartsNone) ∧
      (∀ j, j ≠ i → next.nodes j = wave.nodes j) ∧ (next.nodes i).RelaysNone :=
    fun quiet => quiet_pass env wave next i readable arrived goes.ready goes.starts once quiet taken
  cases goes.stage with
  | flies dest host ttl nr list flight valid left_ some_ quiet =>
      obtain ⟨same, handled, _, ready, starts, others, still⟩ := calm (quiet i)
      refine ⟨⟨ready, starts, .flies dest host ttl nr list (same.trans flight) valid (by rw [handled, left_]) some_ ?_⟩, silent same⟩
      exact nodes_beside wave.nodes next.nodes i (fun _ => P2pm.RelaysNone) others still fun j _ => quiet j
  | over_ flight quiet =>
      obtain ⟨same, handled, _, ready, starts, others, still⟩ := calm (quiet i)
      refine ⟨⟨ready, starts, .over_ (same.trans flight) ?_⟩, silent same⟩
      exact nodes_beside wave.nodes next.nodes i (fun _ => P2pm.RelaysNone) others still fun j _ => quiet j
  | waits k flight left_ some_ received quiet =>
      by_cases elsewhere : i ≠ k
      · obtain ⟨same, handled, got, ready, starts, others, still⟩ := calm (quiet i elsewhere)
        have kept := others k fun same => elsewhere same.symm
        refine ⟨⟨ready, starts, .waits k (same.trans flight) (by rw [kept, handled, left_]) (by rw [kept]; exact some_)
          (by rw [kept, got]; exact received) ?_⟩, silent same⟩
        exact nodes_beside wave.nodes next.nodes i (fun j node => j ≠ k → node.RelaysNone) others (fun _ => still) fun j _ => quiet j
      · obtain rfl : i = k := not_not.mp elsewhere
        simp only [Wave.step] at taken
        split at taken
        · cases taken
        · rename_i node done
          obtain ⟨readied, none_, ttl, sends⟩ := pass_sends (env i) _ node readable arrived (goes.ready i) (goes.starts i) once done
          cases taken
          have ready : ∀ j, (Function.update wave.nodes i node j).Ready :=
            nodes_each wave.nodes i node _ readied fun j _ => goes.ready j
          have starts : ∀ j, (Function.update wave.nodes i node j).StartsNone :=
            nodes_each wave.nodes i node _ none_ fun j _ => goes.starts j
          cases sends with
          | little parts few sent _ =>
              have nothing : syncSent (i - 1) (node.predecessorSent.drop (wave.nodes i).predecessorSent.length) = [] := by
                rw [sent, List.drop_left]
                match parts with
                | [] => rfl
                | [_] => rfl
              have same : wave.flight ++ syncSent (i - 1) (node.predecessorSent.drop (wave.nodes i).predecessorSent.length) =
                  wave.flight := by
                rw [nothing, List.append_nil]
              refine ⟨⟨ready, starts, .waits i (same.trans flight) ?_ ?_ ?_ fun j other => ?_⟩, silent same⟩
              · simp only [Function.update_self]
                rw [ttl, left_]
              · simp only [Function.update_self]
                rw [ttl]
                exact some_
              · simp only [Function.update_self]
                rw [ttl]
                exact received
              · simp only [Function.update_of_ne other]
                exact quiet j other
          | relays asked still list valid sent =>
              have sends : syncSent (i - 1) (node.predecessorSent.drop (wave.nodes i).predecessorSent.length) =
                  [(i - 1, syncParts (env i).host (wave.nodes i).lastTtl (wave.nodes i).nodeList.r list)] := by
                rw [sent, List.drop_left]
                rfl
              refine ⟨⟨ready, starts, .flies (i - 1) (env i).host (wave.nodes i).lastTtl (wave.nodes i).nodeList.r list ?_ valid left_
                (fun _ => some_) (nodes_each wave.nodes i node _ still quiet)⟩, fun transfer member => ?_⟩
              · dsimp only
                rw [flight, sends, List.nil_append]
              · dsimp only at member
                rw [List.drop_left, sends, List.mem_singleton] at member
                rw [member, ttl_of_parts]
                exact received

theorem deliver_goes (env : Fin n → P2pmEnv) (t : UInt32) (wave : Wave n) (index : Nat) (goes : wave.Goes t)
    (guard : wave.Guard env t (.delivers index)) :
    wave.Rule env t (.delivers index) ∧ ∀ next, wave.step env (.delivers index) = some next → next.Goes t := by
  have none_ : wave.flight = [] → wave.Rule env t (.delivers index) ∧
      ∀ next, wave.step env (.delivers index) = some next → next.Goes t := by
    intro empty
    constructor
    · intro dest parts there
      rw [empty, List.getElem?_nil] at there
      cases there
    · intro next taken
      simp only [Wave.step, empty, List.getElem?_nil] at taken
      cases taken
  cases goes.stage with
  | waits k flight => exact none_ flight
  | over_ flight => exact none_ flight
  | flies dest host ttl nr list flight valid left_ some_ quiet =>
      by_cases first : index = 0
      · subst first
        have here : wave.flight[0]? = some (dest, syncParts host ttl nr list) := by
          rw [flight]
          rfl
        obtain ⟨code, after, done, ready, triggered, _, result⟩ := sync_handles (env dest) (wave.nodes dest) host ttl nr list
          (goes.ready dest) valid
        have others : ∀ j, j ≠ dest → Function.update wave.nodes dest after j = wave.nodes j :=
          fun j other => Function.update_of_ne other _ _
        have readied : ∀ j, (Function.update wave.nodes dest after j).Ready :=
          nodes_each wave.nodes dest after _ ready fun j _ => goes.ready j
        obtain ⟨refuses, room⟩ := guard dest host ttl nr list here
        have one : (1 : UInt32).toNat = 1 := rfl
        have zero : (0 : UInt32).toNat = 0 := rfl
        have counted : wave.handled + 1 ≤ max t.toNat 1 := by
          by_cases nothing : t = 0
          · rw [nothing, zero] at left_
            omega
          · have positive := some_ nothing
            omega
        have step : wave.step env (.delivers 0) = some {
            nodes := Function.update wave.nodes dest after
            flight := wave.flight.eraseIdx 0
            received := Function.update wave.received dest (ttlOf (env dest) (syncParts host ttl nr list))
            handled := wave.handled + 1 } := by
          simp only [Wave.step, here, done]
        have emptied : wave.flight.eraseIdx 0 = [] := by
          rw [flight]
          rfl
        by_cases last : ttl = 1 ∨ t = 0
        · rw [if_neg fun both => last.elim both.2 fun nothing => absurd (refuses nothing) (UInt32.not_lt.mpr both.1)] at result
          have end_ : ¬ wave.handled + 1 < t.toNat := by
            rcases last with last | nothing
            · rw [last, one] at left_
              omega
            · rw [nothing, zero]
              omega
          have still : after.RelaysNone := ⟨by rw [result.2]; exact (quiet dest).server, by rw [triggered]; exact (quiet dest).predecessor⟩
          constructor
          · intro other parts there
            cases Option.some.inj (here.symm.trans there)
            refine ⟨counted, host, ttl, nr, list, code, after, rfl, done, ?_⟩
            rw [if_neg end_]
            exact result.1
          · intro next taken
            cases Option.some.inj (step.symm.trans taken)
            refine ⟨readied, ?_, .over_ emptied ?_⟩
            · exact nodes_each wave.nodes dest after _ ⟨still.server.2, still.predecessor.2⟩ fun j _ => goes.starts j
            · exact nodes_each wave.nodes dest after _ still fun j _ => quiet j
        · have some_ := some_ fun nothing => last (Or.inr nothing)
          have more : 1 < ttl := UInt32.lt_iff_toNat_lt.mpr (by
            have other : ttl.toNat ≠ 1 := fun same => last (Or.inl (UInt32.toNat_inj.mp same))
            rw [one]
            omega)
          have above : 1 < ttl.toNat := UInt32.lt_iff_toNat_lt.mp more
          have room := room more
          have less : (ttl - 1).toNat = ttl.toNat - 1 := UInt32.toNat_sub_of_le _ _ (UInt32.le_iff_toNat_le.mpr above.le)
          rw [if_pos ⟨room, fun same => last (Or.inl same)⟩] at result
          obtain ⟨copied, _, sent, relays⟩ := result
          constructor
          · intro other parts there
            cases Option.some.inj (here.symm.trans there)
            refine ⟨counted, host, ttl, nr, list, code, after, rfl, done, ?_⟩
            rw [if_pos (by omega)]
            exact copied
          · intro next taken
            cases Option.some.inj (step.symm.trans taken)
            refine ⟨readied, ?_, .waits dest emptied ?_ ?_ ?_ fun j other => ?_⟩
            · refine nodes_each wave.nodes dest after _ ?_ fun j _ => goes.starts j
              exact ⟨by rw [relays]; simp, by rw [triggered]; exact (goes.starts dest).2⟩
            · simp only [Function.update_self]
              rw [sent, less]
              omega
            · simp only [Function.update_self]
              rw [sent, less]
              omega
            · simp only [Function.update_self]
              rw [sent, ttl_of_parts, UInt32.lt_iff_toNat_lt, less]
              omega
            · dsimp only
              rw [others j other]
              exact quiet j
      · have missing : wave.flight[index]? = none := by
          rw [flight]
          apply List.getElem?_eq_none
          rw [List.length_singleton]
          omega
        constructor
        · intro other parts there
          rw [missing] at there
          cases there
        · intro next taken
          simp only [Wave.step, missing] at taken
          cases taken

theorem wave_step_goes (env : Fin n → P2pmEnv) (t : UInt32) (wave : Wave n) (step : WaveStep n) (goes : wave.Goes t)
    (guard : wave.Guard env t step) : wave.Rule env t step ∧ ∀ next, wave.step env step = some next → next.Goes t := by
  cases step with
  | delivers index => exact deliver_goes env t wave index goes guard
  | passes i readable arrived =>
      constructor
      · intro next taken
        exact (pass_goes env t wave next i readable arrived goes guard taken).2
      · intro next taken
        exact (pass_goes env t wave next i readable arrived goes guard taken).1

-- As long as the condition is met, whatever else the predecessors send and however the clocks go.
theorem wave_bounded (env : Fin n → P2pmEnv) (t : UInt32) (wave : Wave n) (steps : List (WaveStep n)) (begins : wave.Begins t)
    (guarded : Runs.Obeys (Wave.step env) (Wave.Guard env t) wave steps) : Runs.Obeys (Wave.step env) (Wave.Rule env t) wave steps :=
  Runs.obeys_guarded (Wave.step env) (Wave.Guard env t) (Wave.Rule env t) (Wave.Goes t)
    (fun wave step goes guard => (wave_step_goes env t wave step goes guard).1)
    (fun wave step next goes guard taken => (wave_step_goes env t wave step goes guard).2 next taken)
    wave steps (begins.goes t wave) guarded

-- A node with room for two addresses, which is sent a list of one.
def sampleWave (t : UInt32) : Wave 1 where
  nodes := fun _ => sampleP2pm
  flight := [(0, syncParts .little t 1 ([84] ++ 0 :: List.replicate 254 0))]
  received := fun _ => 0
  handled := 0

theorem sample_ready : sampleP2pm.Ready := by
  refine ⟨⟨by decide, ?_, by decide, by decide, ?_⟩, List.mem_replicate.mpr ⟨by decide, rfl⟩⟩
  · simp only [sampleP2pm, List.length_append, List.length_cons, List.length_nil, List.length_replicate]
    rfl
  · have first : sampleP2pm.nodeList.slot 0 = [83] := rfl
    rw [first]
    decide

theorem sample_slist_valid : ValidSlist 1 ([84] ++ 0 :: List.replicate 254 0) := by
  refine ⟨by decide, ?_, by decide, ?_⟩
  · simp only [List.length_append, List.length_cons, List.length_nil, List.length_replicate]
    rfl
  · have first : cstr (Pieces.piece maxIdLen 0 ([84] ++ 0 :: List.replicate 254 0)) = [84] := rfl
    rw [first]
    decide

theorem sample_wave_begins (t : UInt32) : (sampleWave t).Begins t where
  ready _ := sample_ready
  quiet _ := (⟨by decide, by decide⟩ : sampleP2pm.RelaysNone)
  flight := ⟨_, _, _, _, rfl, sample_slist_valid⟩
  none_ := rfl

omit [NeZero n] in
theorem sync_parts_nr (host other : HostOrder) (ttl left_ nr count : UInt32) (list rest : Bytes)
    (same : syncParts host ttl nr list = syncParts other left_ count rest) : nr = count := by
  have second := congrArg (fun parts : List MsgPart => (recvWord .little (parts.drop 1)).toOption.map Prod.fst) same
  simpa only [syncParts, List.drop_succ_cons, List.drop_zero, recv_word_part, Except.toOption, Option.map_some, Option.some.injEq] using
    second

def sampleOpeningNode : Fin 2 := ⟨0, Nat.zero_lt_two⟩

def sampleNextNode : Fin 2 := ⟨1, Nat.one_lt_two⟩

-- Two nodes with room for two addresses.
def samplePair : Wave 2 where
  nodes := fun _ => sampleP2pm
  flight := [(sampleOpeningNode, syncParts .little 3 1 ([84] ++ 0 :: List.replicate 254 0))]
  received := fun _ => 0
  handled := 0

theorem sample_pair_begins : samplePair.Begins 3 where
  ready _ := sample_ready
  quiet _ := (⟨by decide, by decide⟩ : sampleP2pm.RelaysNone)
  flight := ⟨_, _, _, _, rfl, sample_slist_valid⟩
  none_ := rfl

theorem sample_room (wave : Wave 2) (dest : Fin 2) (ttl nr : UInt32) (list : Bytes)
    (flight : wave.flight = [(dest, syncParts .little ttl nr list)]) (room : nr ≤ (wave.nodes dest).nodeList.rMax) :
    wave.Guard (fun _ => sampleP2pmEnv) 3 (.delivers 0) := by
  intro target host given count held there
  rw [flight] at there
  have same := Option.some.inj there
  have here : dest = target := congrArg Prod.fst same
  have number := sync_parts_nr _ _ _ _ _ _ _ _ (congrArg Prod.snd same)
  exact ⟨fun zero => absurd zero (by decide), fun _ => here ▸ number ▸ room⟩

def sampleWavePong : List MsgPart := [wordPart .little P2pmReptypes.pongRep.code false]

def sampleWaveSteps : List (WaveStep 2) :=
  [.delivers 0, .passes sampleOpeningNode false [], .passes sampleOpeningNode true sampleWavePong,
    .delivers 0, .passes sampleNextNode false [], .passes sampleNextNode true sampleWavePong, .delivers 0]

set_option maxRecDepth 20000 in
theorem sample_pair_guard :
    Runs.Obeys (Wave.step fun _ => sampleP2pmEnv) (Wave.Guard (fun _ => sampleP2pmEnv) 3) samplePair sampleWaveSteps := by
  have quiet : ∀ node : P2pm, node.predecessorSocketExpectedActions = .noXpv → ¬ node.Repeats sampleP2pmEnv false := by
    rintro node idle ⟨_, _, waits | waits⟩
    · cases idle.symm.trans waits
    · cases idle.symm.trans waits
  have heard : ∀ node : P2pm, ¬ node.Repeats sampleP2pmEnv true := fun node repeats => nomatch repeats.1
  obtain ⟨w1, s1, idle, w2, s2, w3, s3, ⟨list, flight, room⟩, w4, s4, still, w5, s5, w6, s6, more, last, enough⟩ :
      ∃ w1, Wave.step (fun _ => sampleP2pmEnv) samplePair (.delivers 0) = some w1 ∧
        (w1.nodes sampleOpeningNode).predecessorSocketExpectedActions = .noXpv ∧
      ∃ w2, Wave.step (fun _ => sampleP2pmEnv) w1 (.passes sampleOpeningNode false []) = some w2 ∧
      ∃ w3, Wave.step (fun _ => sampleP2pmEnv) w2 (.passes sampleOpeningNode true sampleWavePong) = some w3 ∧
        (∃ list, w3.flight = [(sampleNextNode, syncParts .little 2 2 list)] ∧ (w3.nodes sampleNextNode).nodeList.rMax = 2) ∧
      ∃ w4, Wave.step (fun _ => sampleP2pmEnv) w3 (.delivers 0) = some w4 ∧
        (w4.nodes sampleNextNode).predecessorSocketExpectedActions = .noXpv ∧
      ∃ w5, Wave.step (fun _ => sampleP2pmEnv) w4 (.passes sampleNextNode false []) = some w5 ∧
      ∃ w6, Wave.step (fun _ => sampleP2pmEnv) w5 (.passes sampleNextNode true sampleWavePong) = some w6 ∧
        ∃ list, w6.flight = [(sampleOpeningNode, syncParts .little 1 2 list)] ∧ (w6.nodes sampleOpeningNode).nodeList.rMax = 2 :=
    ⟨_, rfl, rfl, _, rfl, _, rfl, ⟨_, rfl, rfl⟩, _, rfl, rfl, _, rfl, _, rfl, _, rfl, rfl⟩
  refine ⟨sample_room samplePair sampleOpeningNode 3 1 _ rfl (by decide), fun next taken => ?_⟩
  cases s1.symm.trans taken
  refine ⟨quiet _ idle, fun next taken => ?_⟩
  cases s2.symm.trans taken
  refine ⟨heard _, fun next taken => ?_⟩
  cases s3.symm.trans taken
  refine ⟨sample_room _ sampleNextNode 2 2 list flight (room ▸ UInt32.le_refl _), fun next taken => ?_⟩
  cases s4.symm.trans taken
  refine ⟨quiet _ still, fun next taken => ?_⟩
  cases s5.symm.trans taken
  refine ⟨heard _, fun next taken => ?_⟩
  cases s6.symm.trans taken
  exact ⟨sample_room _ sampleOpeningNode 1 2 more last (enough ▸ UInt32.le_refl _), fun _ _ => trivial⟩

set_option maxRecDepth 20000 in
-- The list goes round once and is left alone where it comes back.
theorem wave_bounded_sample : ∃ last,
    Runs.run (Wave.step fun _ => sampleP2pmEnv) samplePair sampleWaveSteps = some last ∧ last.handled = 3 ∧ last.flight = [] ∧
      Runs.Obeys (Wave.step fun _ => sampleP2pmEnv) (Wave.Rule (fun _ => sampleP2pmEnv) 3) samplePair sampleWaveSteps :=
  ⟨_, rfl, rfl, rfl, wave_bounded (fun _ => sampleP2pmEnv) 3 samplePair sampleWaveSteps sample_pair_begins sample_pair_guard⟩

-- A TTL of 0 wraps: the list is copied and goes on with the largest TTL there is.
theorem zero_ttl_wraps (env : P2pmEnv) (node : P2pm) (host : HostOrder) (nr : UInt32) (list : Bytes) (ready : node.Ready)
    (sent : ValidSlist nr list) (room : nr ≤ node.nodeList.rMax) :
    ∃ code after, p2pmSyncSlistHandler env (node.given (syncParts host 0 nr list)) = .ok (code, after) ∧
      p2pmNiCopySuccessorList node.nodeList.toNodeInfo list nr = .ok after.nodeList.toNodeInfo ∧
      after.nodeList.r.toNat = min (nr.toNat + 1) node.nodeList.rMax.toNat ∧ after.lastTtl.toNat = 2 ^ 32 - 1 ∧
      after.serverTriggeredActions = .relayBackwards := by
  obtain ⟨code, after, done, _, _, _, result⟩ := sync_handles env node host 0 nr list ready sent
  have other : nr ≤ node.nodeList.rMax ∧ (0 : UInt32) ≠ 1 := ⟨room, by decide⟩
  rw [if_pos other] at result
  obtain ⟨copied, count, ttl, relays⟩ := result
  refine ⟨code, after, done, copied, count, ?_, relays⟩
  rw [ttl]
  rfl

theorem zero_ttl_breaks : ¬ ∀ (n : Nat) (_ : NeZero n) (env : Fin n → P2pmEnv) (t : UInt32) (wave : Wave n) (steps : List (WaveStep n)),
    wave.Begins t → Runs.Obeys (Wave.step env) (Wave.Rule env t) wave steps := by
  intro all
  have obeys := all 1 inferInstance (fun _ => sampleP2pmEnv) 0 (sampleWave 0) [.delivers 0] (sample_wave_begins 0)
  obtain ⟨_, _, _, _, _, code, after, _, done, left_⟩ := obeys.1 _ _ rfl
  obtain ⟨_, last, same, _, count, _⟩ := zero_ttl_wraps sampleP2pmEnv sampleP2pm .little 1 _ sample_ready sample_slist_valid (by decide)
  cases done.symm.trans same
  rw [if_neg (by decide)] at left_
  rw [left_] at count
  exact absurd count (by decide)

end Synergy
