import Synergy.P2pmFrames
import Synergy.P2pmMessages
import Synergy.Lib.Outcome

set_option autoImplicit false

namespace Synergy

-- The computation does not go round until something more comes in.
def Returns {α : Type} (computation : Except Stop α) : Prop :=
  Outcomes.Holds (fun stop => stop ≠ .diverges) (fun _ => True) computation

theorem returns_error {α : Type} (stop : Stop) : Returns (.error stop : Except Stop α) ↔ stop ≠ .diverges := Iff.rfl

theorem returns_bind {α β : Type} (first : Except Stop α) (second : α → Except Stop β) (one : Returns first)
    (two : ∀ result, first = .ok result → Returns (second result)) : Returns (first >>= second) := by
  cases first with
  | ok result => exact two result rfl
  | error stop => exact one

theorem recv_uint32_returns (host : HostOrder) (frame : Bytes) : Returns (p2pmRecvUint32 host frame) := by
  unfold p2pmRecvUint32
  split
  · simp [returns_error]
  · trivial

theorem part_word_returns (host : HostOrder) (part : MsgPart) : Returns (partWord host part) := by
  unfold partWord
  split
  · simp [returns_error]
  · exact recv_uint32_returns host _

theorem recv_word_returns (host : HostOrder) (inbox : List MsgPart) : Returns (recvWord host inbox) := by
  cases inbox with
  | nil => trivial
  | cons part later => exact returns_bind _ _ (part_word_returns host part) fun _ _ => trivial

theorem copy_loop_returns (source : Bytes) (rounds i : Nat) (list : Bytes) : Returns (copyLoop source rounds i list) := by
  induction rounds generalizing i list with
  | zero => trivial
  | succ rounds ih =>
      unfold copyLoop
      split
      · simp [returns_error]
      · split
        · simp [returns_error]
        · exact ih _ _

theorem copy_list_returns (self : NodeInfo) (list : Bytes) (nR : UInt32) : Returns (p2pmNiCopySuccessorList self list nR) := by
  unfold p2pmNiCopySuccessorList
  split
  · simp [returns_error]
  · split
    · trivial
    · exact returns_bind _ _ (copy_loop_returns _ _ _ _) fun _ _ => trivial

theorem skip_pongs_returns_iff (host : HostOrder) (sRecv : UInt32) (inbox : List MsgPart) :
    Returns (skipPongs host sRecv inbox) ↔
      ¬ (sRecv = P2pmReptypes.pongRep.code ∧ ∀ part ∈ inbox, partWord host part = .ok P2pmReptypes.pongRep.code) := by
  induction inbox generalizing sRecv with
  | nil =>
      by_cases pong : sRecv = P2pmReptypes.pongRep.code
      · simp [skipPongs, pong, returns_error]
      · exact iff_of_true (by simp only [skipPongs, if_neg pong]; trivial) fun both => pong both.1
  | cons part later ih =>
      by_cases pong : sRecv = P2pmReptypes.pongRep.code
      · cases word : partWord host part with
        | error stop =>
            have ends := part_word_returns host part
            rw [word, returns_error] at ends
            simpa [skipPongs, pong, word, bind, Except.bind, returns_error] using ends
        | ok next =>
            have rest := ih next
            simpa [skipPongs, pong, word, bind, Except.bind] using rest
      · exact iff_of_true (by simp only [skipPongs, if_neg pong]; trivial) fun both => pong both.1

theorem stabilize_acked_returns_iff (env : P2pmEnv) (self : P2pm) (sRecv : UInt32) :
    Returns (stabilizeAcked env self sRecv) ↔
      ¬ (sRecv = P2pmReptypes.pongRep.code ∧
        ∀ part ∈ self.successorSocket.inbox, partWord env.host part = .ok P2pmReptypes.pongRep.code) := by
  rw [← skip_pongs_returns_iff env.host sRecv self.successorSocket.inbox]
  constructor
  · intro ends
    cases skipped : skipPongs env.host sRecv self.successorSocket.inbox with
    | ok result => trivial
    | error stop => simpa only [stabilizeAcked, skipped, bind, Except.bind, returns_error] using ends
  · intro ends
    refine returns_bind _ _ ends fun ⟨word, inbox⟩ _ => ?_
    dsimp only
    split
    · trivial
    · refine returns_bind _ _ (recv_word_returns _ _) fun ⟨r, rest⟩ _ => ?_
      cases r with
      | none => trivial
      | some r =>
          dsimp only
          split
          · trivial
          · cases rest with
            | nil => trivial
            | cons part later => exact returns_bind _ _ (copy_list_returns _ _ _) fun _ _ => trivial

-- Nothing but replies to pings has come while the node waits for STABILIZE_ACK.
def P2pm.OnlyPongs (env : P2pmEnv) (self : P2pm) : Prop :=
  self.successorSocketExpectedActions = .stabilizeAck ∧
    ∀ part ∈ self.successorSocket.inbox, partWord env.host part = .ok P2pmReptypes.pongRep.code

theorem successor_readable_returns_iff (env : P2pmEnv) (self : P2pm) (queued : self.successorSocket.inbox ≠ []) :
    Returns (successorReadable env self) ↔ ¬ self.OnlyPongs env := by
  unfold successorReadable
  dsimp only [zclockMono]
  cases inbox : self.successorSocket.inbox with
  | nil => exact absurd inbox queued
  | cons part later =>
      have ends := part_word_returns env.host part
      dsimp only
      cases word : partWord env.host part with
      | error stop =>
          rw [word, returns_error] at ends
          simpa [P2pm.OnlyPongs, inbox, word, bind, Except.bind, returns_error] using ends
      | ok sRecv =>
          simp only [bind, Except.bind]
          by_cases awaits : self.successorSocketExpectedActions = .stabilizeAck
          · simp only [awaits, P2pm.OnlyPongs, inbox, List.mem_cons, forall_eq_or_imp, word, Except.ok.injEq, true_and]
            exact stabilize_acked_returns_iff env _ sRecv
          · have other : ¬ self.OnlyPongs env := fun only => awaits only.1
            refine iff_of_true ?_ other
            split
            · trivial
            · trivial
            · trivial
            · rename_i expected
              exact absurd expected awaits
            · trivial

theorem flush_token_returns (env : P2pmEnv) (self : P2pm) : Returns (flushToken env self) := by
  unfold flushToken
  split
  · dsimp only [zclockMono]
    split
    · simp [returns_error]
    · trivial
  · trivial

theorem readable_handler_returns (env : P2pmEnv) (self : P2pm) (readable : self.revents.successor = true) :
    Returns (successorSocketHandler env self) ↔ Returns (successorReadable env self) := by
  have event : successorEvent env self = successorReadable env self := by rw [successorEvent, if_pos readable]
  constructor
  · intro ends
    cases happened : successorReadable env self with
    | ok result => trivial
    | error stop => simpa only [successorSocketHandler, event, happened, bind, Except.bind, returns_error] using ends
  · intro ends
    rw [successorSocketHandler, event]
    exact returns_bind _ _ ends fun _ _ => flush_token_returns env _

theorem successor_handler_returns_iff (env : P2pmEnv) (self : P2pm) (readable : self.revents.successor = true)
    (queued : self.successorSocket.inbox ≠ []) : Returns (successorSocketHandler env self) ↔ ¬ self.OnlyPongs env := by
  rw [readable_handler_returns env self readable, successor_readable_returns_iff env self queued]

-- successor_socket is readable once more.
def P2pm.hears (self : P2pm) (parts : List MsgPart) : P2pm :=
  { self with
    revents := { self.revents with successor := true }
    successorSocket := { self.successorSocket with inbox := self.successorSocket.inbox ++ parts } }

def samplePong : MsgPart := wordPart .little P2pmReptypes.pongRep.code false

-- The stabilisation has begun with a ping, and its wait is over.
def sampleAwaiting : P2pm :=
  { sampleP2pm with
    currentStatus := .handlingStabilize
    successorSocketExpectedActions := .pingAndStabilizeReq
    successorLastpollTime := -2000 }

theorem successor_handler_returns_iff_sample :
    Returns (successorSocketHandler sampleP2pmEnv (sampleAwaiting.hears [samplePong, samplePong])) ∧
      ¬ Returns (successorSocketHandler sampleP2pmEnv
        { sampleAwaiting.hears [samplePong, samplePong] with successorSocketExpectedActions := .stabilizeAck }) := by
  have pong : partWord sampleP2pmEnv.host samplePong = .ok P2pmReptypes.pongRep.code := rfl
  constructor
  · apply (successor_handler_returns_iff _ _ rfl (by simp [P2pm.hears])).mpr
    rintro ⟨awaits, _⟩
    cases awaits
  · intro ends
    apply (successor_handler_returns_iff _ _ rfl (by simp [P2pm.hears])).mp ends
    refine ⟨rfl, fun part (member : part ∈ [samplePong, samplePong]) => ?_⟩
    have same : part = samplePong := by simpa using member
    exact same ▸ pong

-- Two pings go out at the timeout, both are answered, and the second answer comes before STABILIZE_ACK.
theorem second_pong_spins :
    (∃ pinged acked, successorSocketHandler sampleP2pmEnv sampleAwaiting = .ok pinged ∧
      pinged.successorSent = [pingPart sampleP2pmEnv, pingPart sampleP2pmEnv] ∧
      successorSocketHandler sampleP2pmEnv (pinged.hears [samplePong]) = .ok acked ∧
      successorSocketHandler sampleP2pmEnv (acked.hears [samplePong]) = .error .diverges) ∧
    ¬ ∀ (env : P2pmEnv) (self : P2pm), self.revents.successor = true → self.successorSocket.inbox ≠ [] →
      Returns (successorSocketHandler env self) := by
  refine ⟨⟨_, _, rfl, rfl, rfl, rfl⟩, fun all => ?_⟩
  have ends := all sampleP2pmEnv { sampleAwaiting.hears [samplePong] with successorSocketExpectedActions := .stabilizeAck } rfl
    (by simp [P2pm.hears])
  have spins : successorSocketHandler sampleP2pmEnv
      { sampleAwaiting.hears [samplePong] with successorSocketExpectedActions := .stabilizeAck } = .error .diverges := rfl
  rw [spins, returns_error] at ends
  exact ends rfl

end Synergy
