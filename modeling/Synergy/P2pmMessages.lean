import Synergy.P2pmFrames
import Synergy.Ring

set_option autoImplicit false

namespace Synergy

-- What a receiver makes of the parts p2pm_send_uint32, p2pm_send_uint64 and p2pm_send_str put together.

@[simp] theorem part_word (sender receiver : HostOrder) (word : UInt32) (more : Bool) :
    partWord receiver (wordPart sender word more) = .ok word := by
  have four : (p2pmSendUint32 sender word).length = 4 := store_length _ _ _
  have whole : ((p2pmSendUint32 sender word).map some).take 4 = (p2pmSendUint32 sender word).map some :=
    List.take_of_length_le (by rw [List.length_map, four])
  simp only [partWord, wordPart, whole, Pieces.written_map_some, recv_send_uint32]

@[simp] theorem part_long (sender receiver : HostOrder) (word : UInt64) (more : Bool) :
    partLong receiver (longPart sender word more) = .ok word := by
  have eight : (p2pmSendUint64 sender word).length = 8 := store_length _ _ _
  have whole : ((p2pmSendUint64 sender word).map some).take 8 = (p2pmSendUint64 sender word).map some :=
    List.take_of_length_le (by rw [List.length_map, eight])
  simp only [partLong, longPart, whole, Pieces.written_map_some, recv_send_uint64]

@[simp] theorem recv_word_part (sender receiver : HostOrder) (word : UInt32) (more : Bool) (later : List MsgPart) :
    recvWord receiver (wordPart sender word more :: later) = .ok (some word, later) := by
  simp [recvWord, bind, Except.bind, pure, Except.pure]

@[simp] theorem recv_long_part (sender receiver : HostOrder) (word : UInt64) (more : Bool) (later : List MsgPart) :
    recvLong receiver (longPart sender word more :: later) = .ok (some word, later) := by
  simp [recvLong, bind, Except.bind, pure, Except.pure]

theorem word_positive (word : UInt32) : 1 ≤ word ↔ word ≠ 0 := by
  rw [UInt32.le_iff_toNat_le, ← UInt32.toNat_inj.ne]
  change 1 ≤ word.toNat ↔ word.toNat ≠ 0
  omega

theorem recv_string_parts (sender receiver : HostOrder) (str : Bytes) (clean : NulFree str) (short : str.length < maxIdLen)
    (later : List MsgPart) : recvString receiver (strParts sender str ++ later) = .ok (.str str, later) := by
  have size : maxIdLen = 256 := by decide
  have received := recv_send_str_short str clean (by omega)
  have first := recv_word_part sender receiver (UInt32.ofNat (str.length + 1)) true
    (⟨(str ++ [0]).map some, false⟩ :: later)
  have whole := Pieces.written_map_some (str ++ [0])
  simp only [wordPart] at first
  simp only [recvString, strParts, p2pmSendStr, List.cons_append, List.nil_append, first, whole, received, bind, Except.bind,
    pure, Except.pure]

theorem filled_front (env : P2pmEnv) (size : Nat) (bytes : Bytes) (fits : bytes.length ≤ size) :
    ∃ rest, filled env size (bytes.map some) = bytes ++ rest := by
  refine ⟨(filled env size (bytes.map some)).drop bytes.length, ?_⟩
  have front : (filled env size (bytes.map some)).take bytes.length = bytes := by
    apply List.ext_getElem
    · rw [List.length_take, filled_length, Nat.min_eq_left fits]
    · intro i _ inside
      simp [filled, List.getElem?_map, List.getElem?_eq_getElem inside]
  calc filled env size (bytes.map some)
      = (filled env size (bytes.map some)).take bytes.length ++ (filled env size (bytes.map some)).drop bytes.length :=
        (List.take_append_drop _ _).symm
    _ = bytes ++ (filled env size (bytes.map some)).drop bytes.length := by rw [front]

theorem address_block_string (env : P2pmEnv) (chars : Bytes) (clean : NulFree chars) (short : chars.length < maxIdLen) :
    cstr (addressBlock env chars) = chars := by
  obtain ⟨rest, same⟩ := filled_front env maxIdLen (chars ++ [0]) (by rw [List.length_append, List.length_singleton]; omega)
  rw [addressBlock, same, List.append_assoc]
  exact cstr_terminated chars _ clean

theorem written_slot (list written block : Bytes) (whole : block.length = maxIdLen) (done : writeSlot list 0 block = .ok written) :
    Pieces.piece maxIdLen 0 written = block := by
  unfold writeSlot at done
  split at done
  · cases done
  · cases done
    rw [Nat.zero_mul, List.take_zero, List.nil_append]
    exact Pieces.piece_front maxIdLen block _ whole

theorem copy_loop_first (source : Bytes) (rounds i : Nat) (list copied : Bytes) (first : maxIdLen ≤ i)
    (done : copyLoop source rounds i list = .ok copied) : copied.take maxIdLen = list.take maxIdLen := by
  induction rounds generalizing i list with
  | zero => rw [Except.ok.inj done]
  | succ rounds ih =>
      unfold copyLoop at done
      split at done
      · cases done
      · split at done
        · cases done
        · rename_i inside given
          rw [ih _ _ (by omega) done, List.append_assoc, List.take_append_of_le_length (by rw [List.length_take]; omega),
            List.take_take, Nat.min_eq_left first]

theorem copy_list_first (self copied : NodeInfo) (list : Bytes) (nR : UInt32) (done : p2pmNiCopySuccessorList self list nR = .ok copied) :
    copied.slot 0 = self.slot 0 := by
  unfold p2pmNiCopySuccessorList at done
  split at done
  · cases done
  · split at done
    · cases done
      rfl
    · obtain ⟨middle, looped, done⟩ := bind_ok _ _ _ done
      cases done
      have kept := copy_loop_first _ _ _ _ _ (Nat.le_refl _) looped
      simp only [NodeInfo.slot, Pieces.piece, Nat.zero_mul, List.drop_zero, kept]

structure Peer where
  host : HostOrder
  identity : Bytes
  endpoint : Endpoint

def Peer.identityPart (peer : Peer) : MsgPart := ⟨peer.identity.map some, true⟩

def Peer.asks (peer : Peer) (request : P2pmReqtypes) : List MsgPart :=
  wordPart peer.host request.code true :: strParts peer.host peer.endpoint.chars

def Peer.tells (peer : Peer) (request : P2pmReqtypes) : List MsgPart := [wordPart peer.host request.code false]

-- A member with the endpoint P between O and S, that knows one successor and has room for two.
def sampleP2pmEnv : P2pmEnv where
  host := .little
  endpoint := [80]
  wait := 1000
  stabilizeInterval := 5000
  connects := fun _ => true
  clock := fun n => n
  stray := fun _ => 0
  strayWord := 0
  depth := 4
  clean := by decide
  short := by decide

def sampleP2pm : P2pm where
  nodeList :=
    { successorList := [83] ++ List.replicate 511 0, r := 1, rMax := 2, predecessor := [79], successor := [83],
      tempPredecessor := [], tempSuccessor := [] }
  currentStatus := .member
  predecessorSocketExpectedActions := .noXpv
  successorSocketExpectedActions := .noXpv
  serverTriggeredActions := .noXpv
  predecessorTriggeredActions := .noXpv
  predecessorLastpollTime := 0
  successorLastpollTime := 0
  lastStabilizeTime := 0
  ticks := 0
  lastTtl := 0
  clientid := List.replicate 256 0
  serverInbox := []
  serverSent := []
  successorSocket := { id := 1, connected := [[83]], inbox := [] }
  successorSent := []
  predecessorSocket := { id := 0, connected := [[79]], inbox := [] }
  predecessorSent := []
  opened := 2
  closed := []
  successorPoller := 1
  predecessorPoller := 0
  revents := { server := false, successor := false, predecessor := false, pipe := false }
  sendHasToken := false
  sendToken := Token.none
  recvHasToken := false
  recvToken := Token.none

def samplePeer (letter : UInt8) (nonzero : letter ≠ 0) : Endpoint where
  chars := [letter]
  clean := by
    intro member
    exact nonzero (List.mem_singleton.mp member).symm
  nonempty := List.cons_ne_nil _ _
  short := by
    rw [List.length_singleton]
    decide

end Synergy
