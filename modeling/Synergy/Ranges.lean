import Synergy.Capacity

set_option autoImplicit false

namespace Synergy

-- r counts addresses, no more than r_max, and their bytes are among those that r_max stands for.
structure InRange (node : NodeInfo) : Prop where
  positive : 1 ≤ node.r
  within : node.r ≤ node.rMax
  sent : (shiftId node.r).toNat ≤ (shiftId node.rMax).toNat

theorem in_range (self : NodeInfo) (bounded : self.rMax.toNat < 2 ^ 24) (positive : 1 ≤ self.r) (within : self.r ≤ self.rMax) :
    InRange self := by
  have fewer := UInt32.le_iff_toNat_le.mp within
  refine ⟨positive, within, ?_⟩
  rw [shift_id_blocks, shift_id_blocks, Nat.mod_eq_of_lt bounded, Nat.mod_eq_of_lt (Nat.lt_of_le_of_lt fewer bounded)]
  exact Nat.mul_le_mul_right _ fewer

theorem InRange.most (self : NodeInfo) (range : InRange self) : 1 ≤ self.rMax := UInt32.le_trans range.positive range.within

theorem word_bounded (word most : UInt32) (bounded : most.toNat < 2 ^ 24) (within : word ≤ most) : word + 1 ≠ 0 := by
  have fewer := UInt32.le_iff_toNat_le.mp within
  intro wrapped
  have sum := congrArg UInt32.toNat wrapped
  rw [UInt32.toNat_add] at sum
  change (word.toNat + 1) % 2 ^ 32 = 0 at sum
  omega

theorem copied_range (self copied : NodeInfo) (list : Bytes) (nR : UInt32) (bounded : self.rMax.toNat < 2 ^ 24) (most : 1 ≤ self.rMax)
    (ends : (cstr list).length < maxIdLen) (done : p2pmNiCopySuccessorList self list nR = .ok copied) :
    InRange copied ↔ nR + 1 ≠ 0 := by
  unfold p2pmNiCopySuccessorList at done
  split at done
  · cases done
  · rw [if_neg (by omega)] at done
    by_cases full : nR + 1 > self.rMax
    · simp only [if_pos full] at done
      obtain ⟨middle, _, done⟩ := bind_ok _ _ _ done
      cases done
      constructor
      · intro _ zero
        rw [zero] at full
        exact absurd full (Nat.not_lt_zero _)
      · exact fun _ => in_range _ bounded most (UInt32.le_refl _)
    · simp only [if_neg full] at done
      obtain ⟨middle, _, done⟩ := bind_ok _ _ _ done
      cases done
      constructor
      · exact fun range => (word_positive _).mp range.positive
      · exact fun positive => in_range _ bounded ((word_positive _).mpr positive) (UInt32.not_lt.mp full)

theorem copy_of_endless (self copied : NodeInfo) (list : Bytes) (nR : UInt32) (long : ¬ (cstr list).length < maxIdLen)
    (done : p2pmNiCopySuccessorList self list nR = .ok copied) : copied = self := by
  unfold p2pmNiCopySuccessorList at done
  split at done
  · cases done
  · rw [if_pos (by omega)] at done
    cases done
    rfl

theorem accepted_range (self copied : NodeInfo) (list : Bytes) (nR : UInt32) (done : p2pmNiCopySuccessorList self list nR = .ok copied)
    (bounded : self.rMax.toNat < 2 ^ 24) (range : InRange self) (within : nR ≤ self.rMax) : InRange copied := by
  by_cases ends : (cstr list).length < maxIdLen
  · exact (copied_range self copied list nR bounded range.most ends done).mpr (word_bounded nR self.rMax bounded within)
  · rw [copy_of_endless self copied list nR ends done]
    exact range

-- The list of a JOIN_CMT has come, and its first address has an end.
def ListComes (env : P2pmEnv) (self : P2pm) : List MsgPart → Prop
  | [] => False
  | part :: _ => (cstr (filled env (shiftId self.nodeList.rMax).toNat part.bytes)).length < maxIdLen

-- A JOIN_CMT without such a list announces no more than r_max, and one with it no more than 2 ^ 32 - 2.
def CommitInRange (env : P2pmEnv) (self : P2pm) (inbox : List MsgPart) : Prop :=
  ∀ (r : UInt32) (rest : List MsgPart), recvWord env.host inbox = .ok (some r, rest) → r ≠ 0 →
    (ListComes env self rest → r + 1 ≠ 0) ∧ (¬ ListComes env self rest → r ≤ self.nodeList.rMax)

def NodeInRange (self : P2pm) : Prop := InRange self.nodeList.toNodeInfo

theorem join_commit_range (env : P2pmEnv) (self next : P2pm) (r : UInt32) (buf : Bytes) (done : joinCommit env self r buf = .ok next) :
    ∃ list, p2pmNiCopySuccessorList { self.nodeList.toNodeInfo with successorList := list } buf r = .ok next.nodeList.toNodeInfo := by
  obtain ⟨list, _, done⟩ := bind_ok _ _ _ done
  obtain ⟨copied, listed, done⟩ := bind_ok _ _ _ done
  refine ⟨list, Eq.trans listed ?_⟩
  dsimp only at done
  repeat' split at done
  all_goals cases done
  all_goals rfl

theorem join_cmt_range (env : P2pmEnv) (self next : P2pm) (code : P2pmOpcodes) (bounded : self.nodeList.rMax.toNat < 2 ^ 24)
    (range : NodeInRange self) (done : joinCmtHandler env self = .ok (code, next)) :
    NodeInRange next ↔ CommitInRange env self self.serverInbox := by
  obtain ⟨told, sent, done⟩ := bind_ok _ _ _ done
  rw [send_clientid_part self told true sent] at done
  obtain ⟨⟨word, rest⟩, received, done⟩ := bind_ok _ _ _ done
  have received : recvWord env.host self.serverInbox = .ok (word, rest) := received
  cases word with
  | none =>
      cases done
      refine ⟨fun _ r rest other => ?_, fun _ => range⟩
      rw [received] at other
      cases other
  | some r =>
      dsimp only at done
      by_cases zero : r = 0
      · rw [if_pos zero] at done
        cases done
        refine ⟨fun _ other rest same nonzero => ?_, fun _ => range⟩
        rw [received] at same
        cases same
        exact absurd zero nonzero
      · rw [if_neg zero] at done
        have decides : NodeInRange next ↔
            (ListComes env self rest → r + 1 ≠ 0) ∧ (¬ ListComes env self rest → r ≤ self.nodeList.rMax) := by
          cases rest with
          | nil =>
              cases done
              exact ⟨fun range => ⟨fun comes => comes.elim, fun _ => range.within⟩,
                fun fits => in_range _ bounded ((word_positive r).mpr zero) (fits.2 fun comes => comes)⟩
          | cons part later =>
              obtain ⟨committed, commit, done⟩ := bind_ok _ _ _ done
              cases done
              let buf := filled env (shiftId self.nodeList.rMax).toNat part.bytes
              obtain ⟨list, copied⟩ := join_commit_range env _ next r buf commit
              by_cases ends : ListComes env self (part :: later)
              · have copied :=
                  copied_range ⟨list, r, self.nodeList.rMax⟩ next.nodeList.toNodeInfo buf r bounded range.most ends copied
                exact ⟨fun range => ⟨fun _ => copied.mp range, fun missing => absurd ends missing⟩, fun fits => copied.mpr (fits.1 ends)⟩
              · have same := copy_of_endless ⟨list, r, self.nodeList.rMax⟩ next.nodeList.toNodeInfo buf r ends copied
                rw [NodeInRange, same]
                exact ⟨fun range => ⟨fun comes => absurd comes ends, fun _ => range.within⟩,
                  fun fits => in_range _ bounded ((word_positive r).mpr zero) (fits.2 ends)⟩
        rw [decides]
        constructor
        · intro fits other rest same _
          rw [received] at same
          cases same
          exact fits
        · exact fun fits => fits r rest received zero

theorem sync_slist_range (env : P2pmEnv) (self next : P2pm) (code : P2pmOpcodes) (bounded : self.nodeList.rMax.toNat < 2 ^ 24)
    (range : NodeInRange self) (done : p2pmSyncSlistHandler env self = .ok (code, next)) : NodeInRange next := by
  obtain ⟨told, sent, done⟩ := bind_ok _ _ _ done
  rw [send_clientid_part self told true sent] at done
  obtain ⟨⟨ttl, inbox⟩, _, done⟩ := bind_ok _ _ _ done
  cases ttl with
  | none =>
      cases done
      exact range
  | some ttl =>
      obtain ⟨⟨nr, inbox⟩, _, done⟩ := bind_ok _ _ _ done
      cases nr with
      | none =>
          cases done
          exact range
      | some nr =>
          dsimp only at done
          split at done
          · cases done
            exact range
          · rename_i accepted
            have within : nr ≤ self.nodeList.rMax := UInt32.not_lt.mp fun above => accepted (Or.inr above)
            cases inbox with
            | nil =>
                cases done
                exact range
            | cons part later =>
                dsimp only at done
                split at done
                · obtain ⟨copied, listed, done⟩ := bind_ok _ _ _ done
                  cases done
                  exact accepted_range _ copied _ nr listed bounded range within
                · cases done
                  exact range

theorem serve_range (env : P2pmEnv) (self next : P2pm) (request : ServerCase) (code : P2pmOpcodes)
    (done : serve env self request = .ok (code, next)) (bounded : self.nodeList.rMax.toNat < 2 ^ 24) (range : NodeInRange self) :
    NodeInRange next ↔ (request = .joinCmt → CommitInRange env self self.serverInbox) := by
  by_cases commit : request = .joinCmt
  · subst commit
    rw [join_cmt_range env self next code bounded range done]
    exact ⟨fun fits _ => fits, fun fits => fits rfl⟩
  · refine ⟨fun _ same => absurd same commit, fun _ => ?_⟩
    by_cases slist : request = .syncSlist
    · subst slist
      exact sync_slist_range env self next code bounded range done
    · have r := (serve_request_frame env self next request code done).r (by simp [commit, slist])
      have rMax : next.nodeList.rMax = self.nodeList.rMax := by rw [(serve_frame env self next request code done).same]
      refine in_range _ ?_ ?_ ?_
      · rw [rMax]
        exact bounded
      · rw [r]
        exact range.positive
      · rw [r, rMax]
        exact range.within

-- A JOIN_CMT that a message of the server brings.
def RequestInRange (env : P2pmEnv) (self : P2pm) (later : List MsgPart) : Prop :=
  ∀ ubuf inbox, recvWord env.host later = .ok (ubuf, inbox) → ServerCase.ofCode (ubuf.getD env.strayWord) = .joinCmt →
    CommitInRange env self inbox

theorem serve_message_range (env : P2pmEnv) (self next : P2pm) (identity : MsgPart) (later : List MsgPart) (code : P2pmOpcodes)
    (bounded : self.nodeList.rMax.toNat < 2 ^ 24) (range : NodeInRange self)
    (done : serveMessage env self identity later = .ok (code, next)) : NodeInRange next ↔ RequestInRange env self later := by
  obtain ⟨clientid, ubuf, inbox, _, received, served⟩ := serve_message_served env self next identity later code done
  rw [serve_range env _ next _ code served bounded range]
  constructor
  · intro fits other rest same commit
    rw [received] at same
    cases same
    exact fits commit
  · exact fun fits commit => fits ubuf inbox received commit

theorem stabilize_acked_range (env : P2pmEnv) (self next : P2pm) (sRecv : UInt32) (done : stabilizeAcked env self sRecv = .ok next)
    (bounded : self.nodeList.rMax.toNat < 2 ^ 24) (range : NodeInRange self) : NodeInRange next := by
  obtain ⟨⟨word, inbox⟩, _, done⟩ := bind_ok _ _ _ done
  dsimp only at done
  split at done
  · cases done
    exact range
  · obtain ⟨⟨r, inbox⟩, _, done⟩ := bind_ok _ _ _ done
    cases r with
    | none =>
        cases done
        exact range
    | some r =>
        dsimp only at done
        split at done
        · cases done
          exact range
        · rename_i accepted
          have positive : 1 ≤ r := UInt32.not_lt.mp fun below => accepted (Or.inl below)
          have within : r ≤ self.nodeList.rMax := UInt32.not_lt.mp fun above => accepted (Or.inr above)
          have announced : InRange { self.nodeList.toNodeInfo with r := r } := in_range _ bounded positive within
          cases inbox with
          | nil =>
              cases done
              exact announced
          | cons part later =>
              obtain ⟨copied, listed, done⟩ := bind_ok _ _ _ done
              cases done
              exact accepted_range _ copied _ r listed bounded announced within

theorem fail_over_range (env : P2pmEnv) (self next : P2pm) (done : failOver env self = .ok next) (range : NodeInRange self) :
    NodeInRange next := by
  obtain ⟨address, _, done⟩ := bind_ok _ _ _ done
  split at done
  · obtain ⟨list, _, done⟩ := bind_ok _ _ _ done
    obtain ⟨fixed, fix, done⟩ := bind_ok _ _ _ done
    obtain ⟨first, _, done⟩ := bind_ok _ _ _ done
    by_cases unterminated : 0 ∉ first
    · rw [if_pos unterminated] at done
      cases done
    · rw [if_neg unterminated, (fix_list_frame _ fixed fix).1] at done
      cases done
      exact ⟨range.positive, range.within, range.sent⟩
  · cases done
    exact range

theorem successor_readable_range (env : P2pmEnv) (self next : P2pm) (bounded : self.nodeList.rMax.toNat < 2 ^ 24)
    (range : NodeInRange self) (done : successorReadable env self = .ok next) : NodeInRange next := by
  unfold successorReadable at done
  dsimp only [zclockMono] at done
  have pinged : ∀ (before : P2pm) (sRecv : UInt32), NodeInRange before → NodeInRange (stabilizePinged env before sRecv) := by
    intro before sRecv range
    unfold stabilizePinged
    split
    · exact range
    · exact range
  split at done
  · cases done
  · obtain ⟨sRecv, _, done⟩ := bind_ok _ _ _ done
    split at done
    · cases done
      exact pinged _ sRecv range
    · cases done
      exact pinged _ sRecv range
    · cases done
      exact pinged _ sRecv range
    · exact stabilize_acked_range env _ next sRecv done bounded range
    · cases done
      exact range

theorem successor_event_range (env : P2pmEnv) (self next : P2pm) (bounded : self.nodeList.rMax.toNat < 2 ^ 24)
    (range : NodeInRange self) (done : successorEvent env self = .ok next) : NodeInRange next := by
  unfold successorEvent at done
  split at done
  · exact successor_readable_range env self next bounded range done
  · dsimp only [zclockMono] at done
    split at done
    · unfold successorTimeout at done
      dsimp only [zclockMono] at done
      split at done
      · cases done
        exact range
      · cases done
        exact range
      · exact fail_over_range env _ next done range
      · exact fail_over_range env _ next done range
      · cases done
        exact range
    · split at done
      · cases done
        exact range
      · split at done
        · cases done
          exact range
        · cases done
          exact range

theorem successor_handler_range (env : P2pmEnv) (self next : P2pm) (done : successorSocketHandler env self = .ok next)
    (bounded : self.nodeList.rMax.toNat < 2 ^ 24) (range : NodeInRange self) : NodeInRange next := by
  obtain ⟨middle, happened, flushed⟩ := successor_handler_parts env self next done
  rw [flush_token_frame env middle next flushed]
  exact successor_event_range env self middle bounded range happened

theorem predecessor_handler_range (env : P2pmEnv) (self next : P2pm) (range : NodeInRange self)
    (done : predecessorSocketHandler env env.depth self = .ok next) : NodeInRange next := by
  rw [(predecessor_handler_frame env env.depth self next done).same]
  exact ⟨range.positive, range.within, range.sent⟩

theorem timer_list (env : P2pmEnv) (self : P2pm) : (stabilizeTimer env self).nodeList = self.nodeList := by
  rw [stabilize_timer_frame env self]

-- The states in which the handlers of a pass return, as far as the pass gets.
def serverReturns (env : P2pmEnv) (self : P2pm) : List P2pm :=
  match self.serverInbox with
  | [] => []
  | identity :: later =>
      match serveMessage env self identity later with
      | .error _ => []
      | .ok (_, served) => [served]

def socketReturns (env : P2pmEnv) (self : P2pm) : List P2pm :=
  match successorSocketHandler env (stabilizeTimer env self) with
  | .error _ => []
  | .ok middle =>
      match predecessorSocketHandler env env.depth middle with
      | .error _ => [middle]
      | .ok last => [middle, last]

def passReturns (env : P2pmEnv) (self : P2pm) : List P2pm :=
  if self.revents.server then serverReturns env self ++ (serverReturns env self).flatMap (socketReturns env)
  else socketReturns env self

theorem socket_returns_range (env : P2pmEnv) (self : P2pm) (bounded : self.nodeList.rMax.toNat < 2 ^ 24) (range : NodeInRange self) :
    ∀ returned ∈ socketReturns env self, NodeInRange returned := by
  unfold socketReturns
  have timed := timer_list env self
  cases successor : successorSocketHandler env (stabilizeTimer env self) with
  | error stop => exact fun _ none => absurd none List.not_mem_nil
  | ok middle =>
      have first : NodeInRange middle :=
        successor_handler_range env _ middle successor (by rw [timed]; exact bounded) (by rw [NodeInRange, timed]; exact range)
      dsimp only
      cases predecessor : predecessorSocketHandler env env.depth middle with
      | error stop =>
          intro returned member
          rw [List.mem_singleton.mp member]
          exact first
      | ok last =>
          intro returned member
          rcases List.mem_pair.mp member with same | same
          · exact same ▸ first
          · exact same ▸ predecessor_handler_range env middle last first predecessor

def PassInRange (env : P2pmEnv) (self : P2pm) : Prop :=
  ∀ identity later, self.revents.server = true → self.serverInbox = identity :: later → RequestInRange env self later

theorem server_returns_range (env : P2pmEnv) (self : P2pm) (bounded : self.nodeList.rMax.toNat < 2 ^ 24) (range : NodeInRange self)
    (readable : self.revents.server = true) (fits : PassInRange env self) :
    ∀ returned ∈ serverReturns env self, NodeInRange returned ∧ returned.nodeList.rMax = self.nodeList.rMax := by
  unfold serverReturns
  cases inbox : self.serverInbox with
  | nil => exact fun _ none => absurd none List.not_mem_nil
  | cons identity later =>
      dsimp only
      cases served : serveMessage env self identity later with
      | error stop => exact fun _ none => absurd none List.not_mem_nil
      | ok result =>
          intro returned member
          rw [List.mem_singleton.mp member]
          refine ⟨?_, ?_⟩
          · exact (serve_message_range env self result.2 identity later result.1 bounded range served).mpr
              (fits identity later readable inbox)
          · rw [(serve_message_frame env self result.2 identity later result.1 served).same]

theorem pass_returns_range (env : P2pmEnv) (self : P2pm) (bounded : self.nodeList.rMax.toNat < 2 ^ 24) (range : NodeInRange self)
    (fits : PassInRange env self) : ∀ returned ∈ passReturns env self, NodeInRange returned := by
  unfold passReturns
  by_cases readable : self.revents.server = true
  · rw [if_pos readable]
    have server := server_returns_range env self bounded range readable fits
    intro returned member
    cases List.mem_append.mp member with
    | inl first => exact (server returned first).1
    | inr rest =>
        obtain ⟨served, first, second⟩ := List.mem_flatMap.mp rest
        obtain ⟨range, rMax⟩ := server served first
        exact socket_returns_range env served (by rw [rMax]; exact bounded) range returned second
  · rw [if_neg readable]
    exact socket_returns_range env self bounded range

theorem pass_decides (env : P2pmEnv) (self next : P2pm) (code : P2pmOpcodes) (bounded : self.nodeList.rMax.toNat < 2 ^ 24)
    (range : NodeInRange self) (done : p2pmLoopServer env self = .ok (code, next)) :
    (∀ returned ∈ passReturns env self, NodeInRange returned) ↔ PassInRange env self := by
  refine ⟨fun returns identity later readable inbox => ?_, pass_returns_range env self bounded range⟩
  unfold p2pmLoopServer at done
  rw [if_pos readable] at done
  simp only [inbox] at done
  obtain ⟨⟨answer, served⟩, serve, _⟩ := bind_ok _ _ _ done
  refine (serve_message_range env self served identity later answer bounded range serve).mp (returns served ?_)
  have first : serverReturns env self = [served] := by
    unfold serverReturns
    simp only [inbox, serve]
  rw [passReturns, if_pos readable, first]
  simp

theorem loop_server_range (env : P2pmEnv) (self next : P2pm) (code : P2pmOpcodes) (bounded : self.nodeList.rMax.toNat < 2 ^ 24)
    (range : NodeInRange self) (fits : PassInRange env self) (done : p2pmLoopServer env self = .ok (code, next)) :
    NodeInRange next ∧ next.nodeList.rMax = self.nodeList.rMax := by
  have sockets : ∀ before : P2pm, before.nodeList.rMax = self.nodeList.rMax → NodeInRange before → loopSockets env before = .ok next →
      NodeInRange next ∧ next.nodeList.rMax = self.nodeList.rMax := by
    intro before rMax range went
    obtain ⟨middle, last, successor, predecessor, same⟩ := loop_sockets_parts env before next went
    have returns := socket_returns_range env before (by rw [rMax]; exact bounded) range last
      (by unfold socketReturns; simp only [successor, predecessor]; simp)
    refine ⟨same ▸ returns, ?_⟩
    rw [(loop_sockets_frame env before next went).same]
    exact rMax
  unfold p2pmLoopServer at done
  by_cases readable : self.revents.server = true
  · rw [if_pos readable] at done
    cases inbox : self.serverInbox with
    | nil =>
        simp only [inbox] at done
        cases done
        exact ⟨range, rfl⟩
    | cons identity later =>
        simp only [inbox] at done
        obtain ⟨⟨answer, served⟩, serve, done⟩ := bind_ok _ _ _ done
        obtain ⟨last, went, done⟩ := bind_ok _ _ _ done
        cases done
        have first := (serve_message_range env self served identity later answer bounded range serve).mpr
          (fits identity later readable inbox)
        have rMax : served.nodeList.rMax = self.nodeList.rMax := by
          rw [(serve_message_frame env self served identity later answer serve).same]
        exact sockets served rMax first went
  · rw [if_neg readable] at done
    obtain ⟨last, went, done⟩ := bind_ok _ _ _ done
    cases done
    exact sockets self rfl range went

-- The pass of a turn, if it comes to one: what its handlers leave, and the JOIN_CMT it may receive.
def ReturnsInRange (env : P2pmEnv) (actor : P2pmdActor) (turn : ActorTurn) : Prop :=
  (actor.polled turn).terminated = false → ∀ returned ∈ passReturns env (actor.polled turn).node, NodeInRange returned

def TurnInRange (env : P2pmEnv) (actor : P2pmdActor) (turn : ActorTurn) : Prop :=
  (actor.polled turn).terminated = false → PassInRange env (actor.polled turn).node

-- r is in range, and r_max is one of the values that it is compared with.
structure Ranged (actor : P2pmdActor) : Prop where
  bounded : actor.node.nodeList.rMax.toNat < 2 ^ 24
  range : NodeInRange actor.node

theorem Ranged.polled (actor : P2pmdActor) (turn : ActorTurn) (ranged : Ranged actor) : Ranged (actor.polled turn) := by
  constructor
  · rw [polled_list]
    exact ranged.bounded
  · rw [NodeInRange, polled_list]
    exact ranged.range

theorem turn_returns_range (env : P2pmEnv) (actor : P2pmdActor) (turn : ActorTurn) (ranged : Ranged actor)
    (fits : TurnInRange env actor turn) : ReturnsInRange env actor turn := by
  intro open_
  have polled := ranged.polled actor turn
  exact pass_returns_range env _ polled.bounded polled.range (fits open_)

theorem actor_step_pass (env : P2pmEnv) (actor next : P2pmdActor) (turn : ActorTurn) (taken : actor.step env turn = some next) :
    ((actor.polled turn).terminated = true ∧ next = actor.polled turn) ∨
      ∃ code node, (actor.polled turn).terminated = false ∧ p2pmLoopServer env (actor.polled turn).node = .ok (code, node) ∧
        next.node.nodeList = node.nodeList := by
  unfold P2pmdActor.step at taken
  split at taken
  · cases taken
  · dsimp only at taken
    split at taken
    · rename_i terminated
      exact Or.inl ⟨terminated, (Option.some.inj taken).symm⟩
    · rename_i open_
      refine Or.inr ?_
      cases passed : processTimeo env (actor.polled turn) with
      | error stop =>
          rw [passed] at taken
          cases taken
      | ok result =>
          rw [passed] at taken
          cases taken
          obtain ⟨⟨code, node⟩, looped, done⟩ := bind_ok _ _ _ passed
          refine ⟨code, node, by simpa using open_, looped, ?_⟩
          have up : (passUp { actor.polled turn with node := node }).node.nodeList = node.nodeList := by
            unfold passUp
            split
            · rfl
            · rfl
          dsimp only [zclockMono] at done
          split at done
          · cases done
            exact up
          · cases done
            exact up

theorem actor_step_ranged (env : P2pmEnv) (actor next : P2pmdActor) (turn : ActorTurn) (ranged : Ranged actor)
    (fits : TurnInRange env actor turn) (taken : actor.step env turn = some next) : Ranged next := by
  have polled := ranged.polled actor turn
  rcases actor_step_pass env actor next turn taken with ⟨_, same⟩ | ⟨code, node, open_, looped, list⟩
  · exact same ▸ polled
  · obtain ⟨range, rMax⟩ := loop_server_range env _ node code polled.bounded polled.range (fits open_) looped
    constructor
    · rw [list, rMax]
      exact polled.bounded
    · rw [NodeInRange, list]
      exact range

theorem turn_decides (env : P2pmEnv) (actor next : P2pmdActor) (turn : ActorTurn) (ranged : Ranged actor)
    (taken : actor.step env turn = some next) : ReturnsInRange env actor turn ↔ TurnInRange env actor turn := by
  refine ⟨fun returns open_ => ?_, turn_returns_range env actor turn ranged⟩
  have polled := ranged.polled actor turn
  rcases actor_step_pass env actor next turn taken with ⟨terminated, _⟩ | ⟨code, node, _, looped, _⟩
  · rw [open_] at terminated
    cases terminated
  · exact (pass_decides env _ node code polled.bounded polled.range looped).mp (returns open_)

-- From r in range on, r is in range whenever a handler returns, unless a JOIN_CMT brings no list with an address and announces more
-- than r_max, or announces 2 ^ 32 - 1; and it is in range in a pass that does not come to its end, too.
theorem r_stays_in_range (env : P2pmEnv) (actor : P2pmdActor) (turns : List ActorTurn)
    (bounded : actor.node.nodeList.rMax.toNat < 2 ^ 24) (positive : 1 ≤ actor.node.nodeList.r)
    (within : actor.node.nodeList.r ≤ actor.node.nodeList.rMax) :
    (Runs.Meets (P2pmdActor.step env) (ReturnsInRange env) actor turns ↔
        Runs.Meets (P2pmdActor.step env) (TurnInRange env) actor turns) ∧
      (Runs.Meets (P2pmdActor.step env) (TurnInRange env) actor turns →
        ∀ last turn, Runs.run (P2pmdActor.step env) actor turns = some last → TurnInRange env last turn →
          NodeInRange last.node ∧ ReturnsInRange env last turn) := by
  have ranged : Ranged actor := ⟨bounded, in_range _ bounded positive within⟩
  have keeps : ∀ actor turn next, Ranged actor → TurnInRange env actor turn → actor.step env turn = some next → Ranged next :=
    fun actor turn next ranged fits taken => actor_step_ranged env actor next turn ranged fits taken
  constructor
  · exact Runs.meets_iff_meets _ _ _ Ranged (fun actor turn next ranged taken => turn_decides env actor next turn ranged taken) keeps
      actor turns ranged
  · intro fits last turn ran now
    have reached := Runs.run_guarded_invariant _ _ Ranged keeps actor last turns ranged fits ran
    exact ⟨reached.range, turn_returns_range env last turn reached now⟩

-- A JOIN_CMT with nothing behind its r.
def sampleLoneCommit : ActorTurn :=
  .polls { server := [⟨[some 7], true⟩, wordPart .little P2pmReqtypes.joinCmt.code true, wordPart .little 9 false],
           successor := [], predecessor := [] } { server := true, successor := false, predecessor := false, pipe := false } .terminate

theorem sample_slist_in_range (actor : P2pmdActor) (open_ : actor.node.closed = []) (empty : actor.node.serverInbox = []) :
    TurnInRange sampleP2pmEnv actor sampleSlistTurn := by
  intro _ identity later _ inbox ubuf rest received joinCmt
  simp only [P2pmdActor.polled, sampleSlistTurn, open_] at inbox
  simp [P2pm.arrive, empty] at inbox
  obtain ⟨_, same⟩ := inbox
  subst same
  cases received
  exact absurd joinCmt (by decide)

set_option maxRecDepth 20000 in
theorem r_stays_in_range_sample : ∃ last : P2pmdActor,
    Runs.run (P2pmdActor.step sampleP2pmEnv) (sampleActor 2) [sampleSlistTurn] = some last ∧ last.node.nodeList.r = 2 ∧
      NodeInRange last.node ∧ ReturnsInRange sampleP2pmEnv last sampleJoinCmtTurn := by
  obtain ⟨last, ran, r, rMax, closed, inbox⟩ : ∃ last : P2pmdActor,
      Runs.run (P2pmdActor.step sampleP2pmEnv) (sampleActor 2) [sampleSlistTurn] = some last ∧ last.node.nodeList.r = 2 ∧
        last.node.nodeList.rMax = 2 ∧ last.node.closed = [] ∧ last.node.serverInbox = [] := ⟨_, rfl, rfl, rfl, rfl, rfl⟩
  refine ⟨last, ran, r, ?_⟩
  refine (r_stays_in_range sampleP2pmEnv (sampleActor 2) [sampleSlistTurn] (by decide) (by decide) (by decide)).2 ?_ last
    sampleJoinCmtTurn ran ?_
  · exact fun next _ => ⟨sample_slist_in_range (sampleActor 2) rfl rfl, trivial⟩
  · intro _ identity later _ given ubuf rest received _ r after word _
    simp only [P2pmdActor.polled, sampleJoinCmtTurn, closed] at given
    simp [P2pm.arrive, inbox] at given
    obtain ⟨_, same⟩ := given
    subst same
    cases received
    cases word
    refine ⟨fun _ => by decide, fun missing => absurd ?_ missing⟩
    rw [ListComes, polled_list, rMax]
    decide

set_option maxRecDepth 20000 in
-- The r of such a JOIN_CMT stays.
theorem announced_r_kept : ¬ ∀ (env : P2pmEnv) (actor last : P2pmdActor) (turns : List ActorTurn) (turn : ActorTurn) (returned : P2pm),
    1 ≤ actor.node.nodeList.r → actor.node.nodeList.r ≤ actor.node.nodeList.rMax →
      Runs.run (P2pmdActor.step env) actor turns = some last → returned ∈ passReturns env (last.polled turn).node →
        1 ≤ returned.nodeList.r ∧ returned.nodeList.r ≤ returned.nodeList.rMax := by
  intro claim
  obtain ⟨returned, rest, returns, r, rMax⟩ : ∃ returned rest,
      passReturns sampleP2pmEnv ((sampleActor 2).polled sampleLoneCommit).node = returned :: rest ∧ returned.nodeList.r = 9 ∧
        returned.nodeList.rMax = 2 := ⟨_, _, rfl, rfl, rfl⟩
  have within := (claim sampleP2pmEnv (sampleActor 2) (sampleActor 2) [] sampleLoneCommit returned (by decide) (by decide) rfl
    (by rw [returns]; exact List.mem_cons_self)).2
  rw [r, rMax] at within
  exact absurd within (by decide)

end Synergy
