import Synergy.NodeInfo
import Synergy.Requests
import Synergy.Lib.Run
import Mathlib.Data.ZMod.Defs
import Mathlib.Tactic.Abel

set_option autoImplicit false

namespace Synergy

structure Endpoint extends Name where
  nonempty : chars ≠ []
  short : chars.length < maxIdLen

-- What successor lists need of p2pm_t.
structure Node where
  host : HostOrder
  nodeList : NodeInfo
  lastTtl : UInt32

-- The command in front of a transfer: P2PM_SYNC_SLIST to server_socket, P2PM_STABILIZE_ACK to successor_socket.
inductive P2pmCommand where
  | syncSlist
  | stabilizeAck
deriving DecidableEq

-- r and the first r addresses.
def slistFrames (node : Node) : Except Stop (List Frame) :=
  let len := (shiftId node.nodeList.r).toNat
  if len ≤ node.nodeList.successorList.length then
    .ok [sendUint32Frame node.host node.nodeList.r true, ⟨node.nodeList.successorList.take len, false⟩]
  else .error .undefined

-- P2PM_XPV_REPLICATE_BACKWARDS_PINGED and P2PM_XPV_RELAY_BACKWARDS_PINGED of _predecessor_socket_handler.
def replicateBackwards (node : Node) : Except Stop (List Frame) := do
  let list ← slistFrames node
  return sendUint32Frame node.host node.nodeList.rMax true :: list

def relayBackwards (node : Node) : Except Stop (List Frame) := do
  let list ← slistFrames node
  return sendUint32Frame node.host node.lastTtl true :: list

-- _SYNC_SLIST_handler, once it has answered with the client id.
def syncSlistHandler (self : Node) (input : Input) : Except Stop Node := do
  let (ttl, input) ← recvUint32 self.host input
  let (nr, input) ← recvUint32 self.host input
  if nr = 0 ∨ nr > self.nodeList.rMax then return self
  else
    let (buf, _, _) ← recvData (UInt64.ofNat (shiftId nr).toNat) input
    let ttl := ttl - 1
    if ttl > 0 then
      let copied ← p2pmNiCopySuccessorList self.nodeList buf nr
      return { self with nodeList := copied, lastTtl := ttl }
    else return self

-- The branch of _successor_socket_handler for P2PM_STABILIZE_ACK, once it has received the command.
def stabilizeAckHandler (self : Node) (input : Input) : Except Stop Node := do
  let (sRecv, input) ← recvUint32 self.host input
  if sRecv < 1 ∨ sRecv > self.nodeList.rMax then return self
  else
    let adopted := { self.nodeList with r := sRecv }
    let (temp, _, _) ← recvData (UInt64.ofNat (shiftId adopted.r).toNat) input
    let copied ← p2pmNiCopySuccessorList adopted temp adopted.r
    return { self with nodeList := copied }

structure Transfer (n : Nat) where
  dest : Fin n
  command : P2pmCommand
  frames : List Frame

-- A transfer that was sent once stays in flight: it may be delivered late, again or never.
structure Ring (n : Nat) where
  nodes : Fin n → Node
  flight : List (Transfer n)

inductive Deed (n : Nat) where
  | replicates (sender : Fin n)
  | relays (sender : Fin n)
  | acks (sender : Fin n)
  | delivers (index : Nat)

variable {n : Nat} [NeZero n]

def Ring.send (ring : Ring n) (sender : Fin n) (command : P2pmCommand) : Except Stop (List Frame) → Option (Ring n)
  | .ok frames => some { ring with flight := ring.flight ++ [⟨sender - 1, command, frames⟩] }
  | .error _ => none

def Transfer.handle (transfer : Transfer n) (node : Node) : Except Stop Node :=
  let input : Input := { frames := transfer.frames, rcvmore := true, chunks := [] }
  match transfer.command with
  | .syncSlist => syncSlistHandler node input
  | .stabilizeAck => stabilizeAckHandler node input

def Ring.step (ring : Ring n) : Deed n → Option (Ring n)
  | .replicates sender => ring.send sender .syncSlist (replicateBackwards (ring.nodes sender))
  | .relays sender => ring.send sender .syncSlist (relayBackwards (ring.nodes sender))
  | .acks sender => ring.send sender .stabilizeAck (slistFrames (ring.nodes sender))
  | .delivers index =>
      match ring.flight[index]? with
      | none => none
      | some transfer =>
          match transfer.handle (ring.nodes transfer.dest) with
          | .ok node => some { ring with nodes := Function.update ring.nodes transfer.dest node }
          | .error _ => none

-- The k-th node behind the next one, around the ring.
def nodeAfter (i : Fin n) (k : Nat) : Fin n := Fin.ofNat n (i.val + 1 + k)

theorem node_after_succ (i : Fin n) (k : Nat) : nodeAfter i (k + 1) = nodeAfter (i + 1) k := by
  have next : (i + 1 : Fin n) = Fin.ofNat n (i.val + 1) := by
    apply Fin.ext
    simp [Fin.val_add]
  apply Fin.ext
  rw [next]
  simp only [nodeAfter, Fin.val_ofNat]
  rw [Nat.add_assoc ((i.val + 1) % n), Nat.mod_add_mod]
  congr 1
  omega

-- The first r addresses of a node are those of the nodes that come next.
structure NodeInfo.Follows (endpoint : Fin n → Endpoint) (rMax : UInt32) (i : Fin n) (info : NodeInfo) : Prop where
  most : info.rMax = rMax
  size : info.successorList.length = rMax.toNat * maxIdLen
  positive : 1 ≤ info.r.toNat
  bounded : info.r.toNat ≤ rMax.toNat
  slots : ∀ k < info.r.toNat, info.slot k = (endpoint (nodeAfter i k)).chars

structure SentBy (endpoint : Fin n → Endpoint) (rMax : UInt32) (i : Fin n) (r : UInt32) (list : Bytes) : Prop where
  size : list.length = r.toNat * maxIdLen
  positive : 1 ≤ r.toNat
  bounded : r.toNat ≤ rMax.toNat
  slots : ∀ k < r.toNat, cstr (Pieces.piece maxIdLen k list) = (endpoint (nodeAfter i k)).chars

-- Whenever a transfer was sent, and whatever has happened since, it is one its destination can take over.
def Transfer.Sound (endpoint : Fin n → Endpoint) (rMax : UInt32) (transfer : Transfer n) : Prop :=
  ∃ host r list, SentBy endpoint rMax (transfer.dest + 1) r list ∧
    match transfer.command with
    | .syncSlist => ∃ ttl, transfer.frames = [sendUint32Frame host ttl true, sendUint32Frame host r true, ⟨list, false⟩]
    | .stabilizeAck => transfer.frames = [sendUint32Frame host r true, ⟨list, false⟩]

structure Ring.Stable (endpoint : Fin n → Endpoint) (rMax : UInt32) (ring : Ring n) : Prop where
  nodes : ∀ i, (ring.nodes i).nodeList.Follows endpoint rMax i
  flight : ∀ transfer ∈ ring.flight, transfer.Sound endpoint rMax

theorem copy_follows (endpoint : Fin n → Endpoint) (rMax : UInt32) (i : Fin n) (info adopted : NodeInfo) (r : UInt32) (list : Bytes)
    (bounded : rMax.toNat < 2 ^ 24) (follows : info.Follows endpoint rMax i) (sent : SentBy endpoint rMax (i + 1) r list)
    (sameList : adopted.successorList = info.successorList) (sameMax : adopted.rMax = info.rMax) :
    ∃ copied, p2pmNiCopySuccessorList adopted list r = .ok copied ∧ copied.Follows endpoint rMax i := by
  have most : adopted.rMax = rMax := sameMax.trans follows.most
  have first := sent.slots 0 sent.positive
  have short : (cstr (Pieces.piece maxIdLen 0 list)).length < maxIdLen := by
    rw [first]
    exact (endpoint _).short
  obtain ⟨copied, done, keptMax, keptSize, count, head, tail⟩ := copy_successor_list adopted list r (by rw [most]; exact bounded)
    (by rw [sameList, most]; exact follows.size) sent.positive (by rw [most]; exact sent.bounded) sent.size short
  have positive := follows.positive
  have room := follows.bounded
  have some_ := sent.positive
  rw [most] at keptMax count
  refine ⟨copied, done, keptMax, keptSize.trans (sameList ▸ follows.size), by omega, by omega, fun k inside => ?_⟩
  cases k with
  | zero =>
      have same : adopted.slot 0 = info.slot 0 := by rw [NodeInfo.slot, NodeInfo.slot, sameList]
      rw [head, same]
      exact follows.slots 0 positive
  | succ k =>
      rw [tail k inside, sent.slots k (by omega), node_after_succ]

theorem recv_slist (host receiver : HostOrder) (r : UInt32) (list : Bytes) (more : Bool) (small : r.toNat < 2 ^ 24)
    (size : list.length = r.toNat * maxIdLen) :
    recvUint32 receiver ⟨[sendUint32Frame host r true, ⟨list, false⟩], more, []⟩ = .ok (r, ⟨[⟨list, false⟩], true, []⟩) ∧
      recvData (UInt64.ofNat (shiftId r).toNat) ⟨[⟨list, false⟩], true, []⟩ = .ok (list, list.length, ⟨[], false, []⟩) := by
  refine ⟨recv_uint32_frame host receiver r true more _ [], recv_data_frame list _ ?_ false true [] []⟩
  rw [UInt64.toNat_ofNat', size, shift_id_bytes r small]
  have room : r.toNat * maxIdLen ≤ 2 ^ 24 * maxIdLen := Nat.mul_le_mul_right _ (Nat.le_of_lt small)
  have fits : 2 ^ 24 * maxIdLen < 2 ^ 64 := by decide
  exact Nat.mod_eq_of_lt (by omega)

theorem handle_follows (endpoint : Fin n → Endpoint) (rMax : UInt32) (transfer : Transfer n) (node : Node)
    (bounded : rMax.toNat < 2 ^ 24) (follows : node.nodeList.Follows endpoint rMax transfer.dest)
    (sound : transfer.Sound endpoint rMax) :
    ∃ next, transfer.handle node = .ok next ∧ next.nodeList.Follows endpoint rMax transfer.dest := by
  obtain ⟨host, r, list, sent, frames⟩ := sound
  have positive := sent.positive
  have inside := sent.bounded
  have small : r.toNat < 2 ^ 24 := by omega
  have nonzero : ¬ r = 0 := by
    intro zero
    rw [zero] at positive
    cases positive
  have notBelow : ¬ r < 1 := by
    intro below
    have zero := UInt32.lt_iff_toNat_lt.mp below
    rw [show (1 : UInt32).toNat = 1 from rfl] at zero
    omega
  have notAbove : ¬ r > node.nodeList.rMax := by
    rw [follows.most]
    intro above
    have larger := UInt32.lt_iff_toNat_lt.mp above
    omega
  obtain ⟨word, body⟩ := recv_slist host node.host r list true small sent.size
  cases command : transfer.command with
  | syncSlist =>
      rw [command] at frames
      obtain ⟨ttl, frames⟩ := frames
      have first := recv_uint32_frame host node.host ttl true true [sendUint32Frame host r true, ⟨list, false⟩] []
      obtain ⟨copied, done, kept⟩ := copy_follows endpoint rMax transfer.dest node.nodeList node.nodeList r list bounded follows sent rfl rfl
      simp only [Transfer.handle, command, frames, syncSlistHandler, first, word, body, done, nonzero, notAbove, or_self, if_false,
        bind, Except.bind, pure, Except.pure]
      by_cases goes : ttl - 1 > 0
      · rw [if_pos goes]
        exact ⟨_, rfl, kept⟩
      · rw [if_neg goes]
        exact ⟨_, rfl, follows⟩
  | stabilizeAck =>
      rw [command] at frames
      obtain ⟨copied, done, kept⟩ := copy_follows endpoint rMax transfer.dest node.nodeList { node.nodeList with r := r } r list
        bounded follows sent rfl rfl
      simp only [Transfer.handle, command, frames, stabilizeAckHandler, word, body, done, notBelow, notAbove, or_self, if_false,
        bind, Except.bind, pure, Except.pure]
      exact ⟨_, rfl, kept⟩

theorem slist_frames_sent (endpoint : Fin n → Endpoint) (rMax : UInt32) (i : Fin n) (node : Node) (bounded : rMax.toNat < 2 ^ 24)
    (follows : node.nodeList.Follows endpoint rMax i) :
    ∃ list, slistFrames node = .ok [sendUint32Frame node.host node.nodeList.r true, ⟨list, false⟩] ∧
      SentBy endpoint rMax i node.nodeList.r list := by
  have room := follows.bounded
  have bytes := shift_id_bytes node.nodeList.r (by omega)
  have fits : node.nodeList.r.toNat * maxIdLen ≤ node.nodeList.successorList.length := by
    rw [follows.size]
    exact Nat.mul_le_mul_right _ room
  refine ⟨node.nodeList.successorList.take (node.nodeList.r.toNat * maxIdLen), ?_, ?_, follows.positive, room, fun k inside => ?_⟩
  · simp only [slistFrames, bytes, fits, if_true]
  · rw [List.length_take, Nat.min_eq_left fits]
  · rw [Pieces.piece_of_take _ _ _ _ (Nat.mul_le_mul_right _ inside)]
    exact follows.slots k inside

theorem send_stable (endpoint : Fin n → Endpoint) (rMax : UInt32) (ring : Ring n) (sender : Fin n) (command : P2pmCommand)
    (frames : List Frame) (stable : ring.Stable endpoint rMax)
    (sound : (⟨sender - 1, command, frames⟩ : Transfer n).Sound endpoint rMax) :
    ∃ next, ring.send sender command (.ok frames) = some next ∧ next.Stable endpoint rMax := by
  refine ⟨_, rfl, stable.nodes, fun transfer member => ?_⟩
  rcases List.mem_append.mp member with old | new
  · exact stable.flight transfer old
  · rw [List.mem_singleton.mp new]
    exact sound

theorem step_stable (endpoint : Fin n → Endpoint) (rMax : UInt32) (bounded : rMax.toNat < 2 ^ 24) (ring : Ring n) (deed : Deed n)
    (stable : ring.Stable endpoint rMax) (possible : ∀ index, deed = .delivers index → index < ring.flight.length) :
    ∃ next, ring.step deed = some next ∧ next.Stable endpoint rMax := by
  have lists := fun sender => slist_frames_sent endpoint rMax sender (ring.nodes sender) bounded (stable.nodes sender)
  cases deed with
  | replicates sender =>
      obtain ⟨list, built, sent⟩ := lists sender
      simp only [Ring.step, replicateBackwards, built, bind, Except.bind, pure, Except.pure]
      exact send_stable endpoint rMax ring sender _ _ stable ⟨_, _, list, (sub_add_cancel sender 1).symm ▸ sent, _, rfl⟩
  | relays sender =>
      obtain ⟨list, built, sent⟩ := lists sender
      simp only [Ring.step, relayBackwards, built, bind, Except.bind, pure, Except.pure]
      exact send_stable endpoint rMax ring sender _ _ stable ⟨_, _, list, (sub_add_cancel sender 1).symm ▸ sent, _, rfl⟩
  | acks sender =>
      obtain ⟨list, built, sent⟩ := lists sender
      simp only [Ring.step, built]
      exact send_stable endpoint rMax ring sender _ _ stable ⟨_, _, list, (sub_add_cancel sender 1).symm ▸ sent, rfl⟩
  | delivers index =>
      obtain ⟨transfer, present⟩ : ∃ transfer, ring.flight[index]? = some transfer :=
        ⟨_, List.getElem?_eq_getElem (possible index rfl)⟩
      obtain ⟨node, handled, follows⟩ := handle_follows endpoint rMax transfer (ring.nodes transfer.dest) bounded
        (stable.nodes _) (stable.flight _ (List.mem_of_getElem? present))
      simp only [Ring.step, present, handled]
      refine ⟨_, rfl, fun i => ?_, stable.flight⟩
      by_cases here : i = transfer.dest
      · subst here
        simp only [Function.update_self]
        exact follows
      · simp only [Function.update_of_ne here]
        exact stable.nodes i

-- On a ring whose members stay, whatever is lost, late or repeated.
theorem successor_lists_stay_true (endpoint : Fin n → Endpoint) (rMax : UInt32) (bounded : rMax.toNat ≤ 2 ^ 24 - 1) (ring final : Ring n)
    (deeds : List (Deed n)) (initial : ∀ i, (ring.nodes i).nodeList.Follows endpoint rMax i) (silent : ring.flight = [])
    (ran : Runs.run Ring.step ring deeds = some final) :
    (∀ i, 1 ≤ (final.nodes i).nodeList.r.toNat ∧ (final.nodes i).nodeList.r.toNat ≤ rMax.toNat ∧
      ∀ k < (final.nodes i).nodeList.r.toNat, (final.nodes i).nodeList.slot k = (endpoint (nodeAfter i k)).chars) ∧
      ∀ deed, (∀ index, deed = .delivers index → index < final.flight.length) → ∃ next, final.step deed = some next := by
  have small : rMax.toNat < 2 ^ 24 := by omega
  have start : ring.Stable endpoint rMax := ⟨initial, by simp [silent]⟩
  have stable := Runs.run_invariant Ring.step (Ring.Stable endpoint rMax)
    (fun ring deed next stable taken => by
      have possible : ∀ index, deed = .delivers index → index < ring.flight.length := by
        intro index same
        subst same
        by_contra missing
        rw [Ring.step, List.getElem?_eq_none (by omega)] at taken
        cases taken
      obtain ⟨other, same, kept⟩ := step_stable endpoint rMax small ring deed stable possible
      exact Option.some.inj (same.symm.trans taken) ▸ kept)
    ring final deeds start ran
  refine ⟨fun i => ⟨(stable.nodes i).positive, (stable.nodes i).bounded, (stable.nodes i).slots⟩, fun deed possible => ?_⟩
  obtain ⟨next, taken, _⟩ := step_stable endpoint rMax small final deed stable possible
  exact ⟨next, taken⟩

-- A ring of two nodes that know one address each and have room for two.
def sampleEndpoint (i : Fin 2) : Endpoint :=
  if i = 0 then ⟨⟨[65], by decide⟩, by decide, by decide⟩ else ⟨⟨[66], by decide⟩, by decide, by decide⟩

def sampleRing : Ring 2 where
  nodes := fun i =>
    { host := .little, nodeList := ⟨(if i = 0 then [66] else [65]) ++ List.replicate 511 0, 1, 2⟩, lastTtl := 0 }
  flight := []

theorem sample_ring_follows (i : Fin 2) : (sampleRing.nodes i).nodeList.Follows sampleEndpoint 2 i where
  most := rfl
  size := by
    simp only [sampleRing, List.length_append, List.length_replicate]
    split <;> rfl
  positive := Nat.le_refl 1
  bounded := (by decide : 1 ≤ 2)
  slots := by
    intro k inside
    have zero : k = 0 := Nat.lt_one_iff.mp inside
    subst zero
    match i with
    | 0 => rfl
    | 1 => rfl

set_option maxRecDepth 8000 in
theorem successor_lists_stay_true_two :
    ∃ final, Runs.run Ring.step sampleRing [.acks 1, .replicates 0, .delivers 0, .delivers 1, .delivers 0] = some final ∧
      (final.nodes 0).nodeList.r = 2 ∧ ∀ k < (final.nodes 0).nodeList.r.toNat,
        (final.nodes 0).nodeList.slot k = (sampleEndpoint (nodeAfter 0 k)).chars := by
  have reached : ∃ final, Runs.run Ring.step sampleRing [.acks 1, .replicates 0, .delivers 0, .delivers 1, .delivers 0] = some final ∧
      (final.nodes 0).nodeList.r = 2 := ⟨_, rfl, rfl⟩
  obtain ⟨final, ran, r⟩ := reached
  exact ⟨final, ran, r,
    ((successor_lists_stay_true sampleEndpoint 2 (by decide) sampleRing final _ sample_ring_follows rfl ran).1 0).2.2⟩

end Synergy
