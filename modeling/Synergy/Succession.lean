import Synergy.Admission

set_option autoImplicit false

namespace Synergy

-- What a node gets from one that joins in front of it and from the predecessor it has.
inductive PredecessorMessage where
  | joinReq
  | predJoinCmt
  | predJoinAbrt
  | stabilizeReq
  | stabilizeSynReq
  | stabilizeNsynReq
deriving DecidableEq

def PredecessorMessage.request : PredecessorMessage → ServerCase
  | .joinReq => .joinReq
  | .predJoinCmt => .predJoinCmt
  | .predJoinAbrt => .predJoinAbrt
  | .stabilizeReq => .stabilizeReq
  | .stabilizeSynReq => .stabilizeSynReq
  | .stabilizeNsynReq => .stabilizeNsynReq

-- The exchange of the joiner: JOIN_REQ, then PRED_JOIN_CMT or PRED_JOIN_ABRT.
inductive JoinExchange where
  | ahead
  | asked
  | ended
deriving DecidableEq

-- The two nodes next to each other on the ring after a join, and the one that joins between them.
structure Neighbours where
  joiner : Peer
  predecessor : Peer
  different : joiner.endpoint.chars ≠ predecessor.endpoint.chars

def PredecessorMessage.sender (who : Neighbours) : PredecessorMessage → Peer
  | .joinReq | .predJoinCmt | .predJoinAbrt => who.joiner
  | _ => who.predecessor

def PredecessorMessage.parts (who : Neighbours) : PredecessorMessage → List MsgPart
  | .joinReq => who.joiner.asks .joinReq
  | .predJoinCmt => who.joiner.tells .predJoinCmt
  | .predJoinAbrt => who.joiner.tells .predJoinAbrt
  | .stabilizeReq => who.predecessor.asks .stabilizeReq
  | .stabilizeSynReq => who.predecessor.tells .stabilizeSynReq
  | .stabilizeNsynReq => who.predecessor.tells .stabilizeNsynReq

-- last: the last message handled, a STABILIZE_REQ that was refused apart. stabilizing: the predecessor has had an answer to
-- STABILIZE_REQ, and whether it was STABILIZE_ACK. installed: the predecessor right after PRED_JOIN_CMT.
structure Succession where
  node : P2pm
  last : Option PredecessorMessage
  joining : JoinExchange
  stabilizing : Option Bool
  installed : Option Bytes

-- The node handles such a message, or another that has to do with its successor or its tokens, or it goes on with its pass.
inductive Succeeding where
  | handles (message : PredecessorMessage)
  | hears (arrived : List MsgPart)
  | continues (arrivals : Arrivals) (revents : Revents)

def otherCase : ServerCase → Bool
  | .getReq | .joinCmt | .joinAbrt | .pingReq | .syncSlist | .token | .ignored => true
  | _ => false

-- The predecessor sends STABILIZE_SYN_REQ after a STABILIZE_ACK only.
def Succession.allows (state : Succession) : PredecessorMessage → Bool
  | .joinReq => state.joining = .ahead
  | .predJoinCmt | .predJoinAbrt => state.joining = .asked
  | .stabilizeReq => state.stabilizing = none
  | .stabilizeSynReq => state.stabilizing = some true
  | .stabilizeNsynReq => state.stabilizing ≠ none

def Succession.handled (env : P2pmEnv) (state : Succession) (next : P2pm) (message : PredecessorMessage) : Succession :=
  match message with
  | .joinReq => { state with node := next, last := some message, joining := .asked }
  | .predJoinCmt =>
      { state with node := next, last := some message, joining := .ended, installed := some next.nodeList.predecessor }
  | .predJoinAbrt => { state with node := next, last := some message, joining := .ended }
  | .stabilizeReq =>
      if answerPart state.node next = some (wordPart env.host P2pmReptypes.stabilizeAck.code true) then
        { state with node := next, last := some message, stabilizing := some true }
      else { state with node := next, stabilizing := some false }
  | .stabilizeSynReq | .stabilizeNsynReq => { state with node := next, last := some message, stabilizing := none }

-- A pass in which the node leaves the ring and forms one of its own is not among those here.
def Succession.step (env : P2pmEnv) (who : Neighbours) (state : Succession) : Succeeding → Option Succession
  | .handles message =>
      if state.node.serverInbox ≠ [] ∨ state.allows message = false then none
      else
        match serveMessage env state.node (message.sender who).identityPart (message.parts who) with
        | .ok (_, next) => some (state.handled env next message)
        | .error _ => none
  | .hears arrived =>
      match state.node.serverInbox ++ arrived with
      | [] => none
      | identity :: parts =>
          match (requestOf env parts).map otherCase, serveMessage env state.node identity parts with
          | some true, .ok (_, next) => some { state with node := next }
          | _, _ => none
  | .continues arrivals revents =>
      match loopSockets env { state.node.arrive arrivals with revents := revents } with
      | .ok next => if next.nodeList.predecessor = state.node.nodeList.predecessor then some { state with node := next } else none
      | .error _ => none

def Succession.start (node : P2pm) : Succession :=
  { node := node, last := none, joining := .ahead, stabilizing := none, installed := none }

-- The predecessor is P or J, P until PRED_JOIN_CMT, and J right after it.
structure Succession.Safe (who : Neighbours) (state : Succession) : Prop where
  neighbour : state.node.nodeList.predecessor = who.predecessor.endpoint.chars ∨
    state.node.nodeList.predecessor = who.joiner.endpoint.chars
  before : state.installed = none → state.node.nodeList.predecessor = who.predecessor.endpoint.chars
  after : ∀ predecessor, state.installed = some predecessor → predecessor = who.joiner.endpoint.chars

-- PRED_JOIN_CMT comes right after JOIN_REQ, and STABILIZE_SYN_REQ right after STABILIZE_REQ or in another status.
def ComesNext (state : Succession) : Succeeding → Prop
  | .handles .predJoinCmt => state.last = some .joinReq
  | .handles .stabilizeSynReq => state.node.currentStatus = .handlingStabilize → state.last = some .stabilizeReq
  | _ => True

-- What temp_predecessor holds.
def heldPredecessor (who : Neighbours) : PredecessorMessage → Bytes
  | .joinReq => who.joiner.endpoint.chars
  | .stabilizeReq => who.predecessor.endpoint.chars
  | _ => []

structure Succession.Holds (who : Neighbours) (state : Succession) : Prop where
  held : ∀ message, state.last = some message → state.node.nodeList.tempPredecessor = heldPredecessor who message
  first : state.last = none → state.joining = .ahead ∧ state.stabilizing ≠ some true
  asked : state.last = some .joinReq → state.joining = .asked
  pending : state.joining ≠ .ended → state.installed = none

theorem join_req_holds (env : P2pmEnv) (self next : P2pm) (peer : Peer) (code : P2pmOpcodes)
    (done : joinReqHandler env self = .ok (code, next)) (inbox : self.serverInbox = strParts peer.host peer.endpoint.chars) :
    next.nodeList.tempPredecessor = peer.endpoint.chars := by
  obtain ⟨told, sent, done⟩ := bind_ok _ _ _ done
  rw [send_clientid_part self told true sent] at done
  have received := recv_string_parts peer.host env.host peer.endpoint.chars peer.endpoint.clean peer.endpoint.short []
  rw [List.append_nil, ← inbox] at received
  obtain ⟨⟨buf, rest⟩, taken, done⟩ := bind_ok _ _ _ done
  have string : buf = .str peer.endpoint.chars := congrArg Prod.fst (Except.ok.inj (taken.symm.trans received))
  subst string
  dsimp only at done
  rw [if_neg (Nat.not_le.mpr peer.endpoint.short)] at done
  split at done
  · cases done
    rfl
  · split at done
    · obtain ⟨replied, sent, done⟩ := bind_ok _ _ _ done
      obtain ⟨list, _, same⟩ := reply_slist_sent env _ replied _ sent
      cases done
      rw [same]
      rfl
    · cases done
      rfl

theorem stabilize_req_result (env : P2pmEnv) (self next : P2pm) (peer : Peer) (code : P2pmOpcodes)
    (done : stabilizeReqHandler env self = .ok (code, next)) (inbox : self.serverInbox = strParts peer.host peer.endpoint.chars) :
    (answerPart self next = some (wordPart env.host P2pmReptypes.stabilizeAck.code true) ∧
      next.nodeList.tempPredecessor = peer.endpoint.chars) ∨
    (answerPart self next = none ∧ next.nodeList.tempPredecessor = self.nodeList.tempPredecessor) := by
  unfold stabilizeReqHandler at done
  split at done
  · cases done
    right
    constructor
    · simp [answerPart, reply, serverSend]
    · rfl
  · obtain ⟨told, sent, done⟩ := bind_ok _ _ _ done
    rw [send_clientid_part _ told true sent] at done
    have received := recv_string_parts peer.host env.host peer.endpoint.chars peer.endpoint.clean peer.endpoint.short []
    rw [List.append_nil, ← inbox] at received
    obtain ⟨⟨addr, rest⟩, taken, done⟩ := bind_ok _ _ _ done
    have string : addr = .str peer.endpoint.chars := congrArg Prod.fst (Except.ok.inj (taken.symm.trans received))
    subst string
    dsimp only at done
    rw [if_neg (Nat.not_le.mpr peer.endpoint.short)] at done
    obtain ⟨replied, sent, done⟩ := bind_ok _ _ _ done
    obtain ⟨list, _, same⟩ := reply_slist_sent env _ replied _ sent
    cases done
    left
    rw [same]
    constructor
    · simp [answerPart, serverSend]
    · rfl

theorem stabilize_syn_result (env : P2pmEnv) (self : P2pm) :
    (stabilizeSynReqHandler env self).2.nodeList.predecessor =
      if self.currentStatus = .handlingStabilize then self.nodeList.tempPredecessor else self.nodeList.predecessor := by
  unfold stabilizeSynReqHandler
  by_cases handling : self.currentStatus = .handlingStabilize
  · rw [if_neg (not_not_intro handling), if_pos handling]
    by_cases same : self.nodeList.predecessor = self.nodeList.tempPredecessor
    · rw [if_pos same]
      exact same
    · rw [if_neg same]
  · rw [if_pos handling, if_neg handling]

theorem other_case_keeps (request : ServerCase) (other : otherCase request = true) :
    request ∈ [ServerCase.getReq, .joinCmt, .joinAbrt, .pingReq, .syncSlist, .token, .ignored] := by
  cases request with
  | joinReq => cases other
  | stabilizeNsynReq => cases other
  | predJoinCmt => cases other
  | predJoinAbrt => cases other
  | stabilizeReq => cases other
  | stabilizeSynReq => cases other
  | oneRingJoinReq => cases other
  | tailFound => cases other
  | headFound => cases other
  | _ => simp

def predecessorAfter (self : P2pm) : PredecessorMessage → Bytes
  | .predJoinCmt => self.nodeList.tempPredecessor
  | .stabilizeSynReq =>
      if self.currentStatus = .handlingStabilize then self.nodeList.tempPredecessor else self.nodeList.predecessor
  | _ => self.nodeList.predecessor

theorem predecessor_message_served (env : P2pmEnv) (who : Neighbours) (self next : P2pm) (message : PredecessorMessage)
    (code : P2pmOpcodes) (done : serveMessage env self (message.sender who).identityPart (message.parts who) = .ok (code, next)) :
    ∃ clientid, serve env { self with clientid := clientid, serverInbox := (message.parts who).tail } message.request =
      .ok (code, next) := by
  obtain ⟨clientid, ubuf, inbox, _, received, served⟩ := serve_message_served env self next _ _ code done
  refine ⟨clientid, ?_⟩
  cases message with
  | joinReq =>
      rw [PredecessorMessage.parts, Peer.asks, recv_word_part] at received
      cases received
      exact served
  | predJoinCmt =>
      rw [PredecessorMessage.parts, Peer.tells, recv_word_part] at received
      cases received
      exact served
  | predJoinAbrt =>
      rw [PredecessorMessage.parts, Peer.tells, recv_word_part] at received
      cases received
      exact served
  | stabilizeReq =>
      rw [PredecessorMessage.parts, Peer.asks, recv_word_part] at received
      cases received
      exact served
  | stabilizeSynReq =>
      rw [PredecessorMessage.parts, Peer.tells, recv_word_part] at received
      cases received
      exact served
  | stabilizeNsynReq =>
      rw [PredecessorMessage.parts, Peer.tells, recv_word_part] at received
      cases received
      exact served

theorem predecessor_message_result (env : P2pmEnv) (who : Neighbours) (self next : P2pm) (message : PredecessorMessage)
    (code : P2pmOpcodes) (done : serveMessage env self (message.sender who).identityPart (message.parts who) = .ok (code, next)) :
    next.nodeList.predecessor = predecessorAfter self message ∧
      (message ≠ .stabilizeReq → next.nodeList.tempPredecessor = heldPredecessor who message) ∧
      (message = .stabilizeReq →
        answerPart self next = some (wordPart env.host P2pmReptypes.stabilizeAck.code true) ∧
            next.nodeList.tempPredecessor = heldPredecessor who message ∨
          answerPart self next = none ∧ next.nodeList.tempPredecessor = self.nodeList.tempPredecessor) := by
  obtain ⟨clientid, served⟩ := predecessor_message_served env who self next message code done
  cases message with
  | joinReq =>
      have kept := congrArg (fun node => node.nodeList.predecessor) (join_req_frame env _ next code served)
      have held := join_req_holds env _ next who.joiner code served rfl
      exact ⟨kept, fun _ => held, fun other => nomatch other⟩
  | predJoinCmt =>
      cases served
      exact ⟨rfl, fun _ => rfl, fun other => nomatch other⟩
  | predJoinAbrt =>
      cases served
      exact ⟨rfl, fun _ => rfl, fun other => nomatch other⟩
  | stabilizeReq =>
      have kept := congrArg (fun node => node.nodeList.predecessor) (stabilize_req_frame env _ next code served)
      have result := stabilize_req_result env _ next who.predecessor code served rfl
      exact ⟨kept, fun other => absurd rfl other, fun _ => result⟩
  | stabilizeSynReq =>
      have result : next = (stabilizeSynReqHandler env { self with
          clientid := clientid, serverInbox := (PredecessorMessage.stabilizeSynReq.parts who).tail }).2 :=
        congrArg Prod.snd (Except.ok.inj served).symm
      have installed := stabilize_syn_result env { self with
        clientid := clientid, serverInbox := (PredecessorMessage.stabilizeSynReq.parts who).tail }
      have cleared := congrArg (fun node => node.nodeList.tempPredecessor) (stabilize_syn_req_frame env { self with
        clientid := clientid, serverInbox := (PredecessorMessage.stabilizeSynReq.parts who).tail })
      rw [← result] at installed cleared
      exact ⟨installed, fun _ => cleared, fun other => nomatch other⟩
  | stabilizeNsynReq =>
      rw [stabilize_nsyn_req_frame _ next code served]
      exact ⟨rfl, fun _ => rfl, fun other => nomatch other⟩

theorem succession_step (env : P2pmEnv) (who : Neighbours) (state next : Succession) (action : Succeeding)
    (taken : state.step env who action = some next) :
    (∃ message node code, action = .handles message ∧ ¬ state.allows message = false ∧ next = state.handled env node message ∧
      serveMessage env state.node (message.sender who).identityPart (message.parts who) = .ok (code, node)) ∨
    (∃ node, (∀ message, action ≠ .handles message) ∧ next = { state with node := node } ∧
      node.nodeList.predecessor = state.node.nodeList.predecessor ∧
      node.nodeList.tempPredecessor = state.node.nodeList.tempPredecessor) := by
  cases action with
  | handles message =>
      simp only [Succession.step] at taken
      by_cases refused : state.node.serverInbox ≠ [] ∨ state.allows message = false
      · rw [if_pos refused] at taken
        cases taken
      · rw [if_neg refused] at taken
        split at taken
        · rename_i code node done
          exact Or.inl ⟨message, node, code, rfl, fun no => refused (Or.inr no), (Option.some.inj taken).symm, done⟩
        · cases taken
  | hears arrived =>
      simp only [Succession.step] at taken
      split at taken
      · cases taken
      · split at taken
        · rename_i identity parts _ _ _ code node other done
          obtain ⟨clientid, ubuf, inbox, _, received, served⟩ := serve_message_served env state.node node identity parts code done
          rw [requestOf, received] at other
          have kept := (serve_request_frame env _ node _ code served).predecessor (other_case_keeps _ (Option.some.inj other))
          exact Or.inr ⟨node, fun message same => (by cases same), (Option.some.inj taken).symm, kept.1, kept.2⟩
        · cases taken
  | continues arrivals revents =>
      simp only [Succession.step] at taken
      split at taken
      · rename_i node done
        split at taken
        · rename_i stays
          have held := congrArg (fun node => node.nodeList.tempPredecessor) (loop_sockets_frame env _ node done).same
          exact Or.inr ⟨node, fun message same => (by cases same), (Option.some.inj taken).symm, stays, held⟩
        · cases taken
      · cases taken

theorem succession_holds (env : P2pmEnv) (who : Neighbours) (state next : Succession) (action : Succeeding)
    (holds : state.Holds who) (taken : state.step env who action = some next) : next.Holds who := by
  rcases succession_step env who state next action taken with ⟨message, node, code, _, allowed, same, done⟩ | ⟨node, _, same, _, temp⟩
  · obtain ⟨_, held, answered⟩ := predecessor_message_result env who state.node node message code done
    subst same
    have other : ∀ message : PredecessorMessage, some message ≠ none := fun message => Option.some_ne_none message
    cases message with
    | joinReq =>
        have held := held (by decide)
        have ahead : state.joining ≠ .ended := by
          intro ended
          simp [Succession.allows, ended] at allowed
        exact { held := fun message same => Option.some.inj same ▸ held, first := fun none_ => absurd none_ (other _),
                asked := fun _ => rfl, pending := fun _ => holds.pending ahead }
    | predJoinCmt =>
        have held := held (by decide)
        exact { held := fun message same => Option.some.inj same ▸ held, first := fun none_ => absurd none_ (other _),
                asked := fun same => (nomatch same), pending := fun ended => absurd rfl ended }
    | predJoinAbrt =>
        have held := held (by decide)
        exact { held := fun message same => Option.some.inj same ▸ held, first := fun none_ => absurd none_ (other _),
                asked := fun same => (nomatch same), pending := fun ended => absurd rfl ended }
    | stabilizeReq =>
        rcases answered rfl with ⟨acked, held⟩ | ⟨refused, kept⟩
        · simp only [Succession.handled, if_pos acked]
          exact { held := fun message same => Option.some.inj same ▸ held, first := fun none_ => absurd none_ (other _),
                  asked := fun same => (nomatch same), pending := holds.pending }
        · have unanswered : ¬ answerPart state.node node = some (wordPart env.host P2pmReptypes.stabilizeAck.code true) := by
            rw [refused]
            exact fun same => (nomatch same)
          simp only [Succession.handled, if_neg unanswered]
          exact { held := fun message same => kept.trans (holds.held message same), asked := holds.asked, pending := holds.pending,
                  first := fun none_ => ⟨(holds.first none_).1, fun same => (nomatch same)⟩ }
    | stabilizeSynReq =>
        have held := held (by decide)
        exact { held := fun message same => Option.some.inj same ▸ held, first := fun none_ => absurd none_ (other _),
                asked := fun same => (nomatch same), pending := holds.pending }
    | stabilizeNsynReq =>
        have held := held (by decide)
        exact { held := fun message same => Option.some.inj same ▸ held, first := fun none_ => absurd none_ (other _),
                asked := fun same => (nomatch same), pending := holds.pending }
  · subst same
    exact { held := fun message last => temp.trans (holds.held message last), first := holds.first, asked := holds.asked,
            pending := holds.pending }

theorem installs_held (who : Neighbours) (state : Succession) (holds : state.Holds who) (message : PredecessorMessage)
    (allowed : ¬ state.allows message = false) (installing : message = .predJoinCmt ∨ message = .stabilizeSynReq) :
    ∃ before, state.last = some before ∧ state.node.nodeList.tempPredecessor = heldPredecessor who before := by
  cases last : state.last with
  | some before => exact ⟨before, rfl, holds.held before last⟩
  | none =>
      obtain ⟨ahead, unanswered⟩ := holds.first last
      rcases installing with rfl | rfl
      · simp [Succession.allows, ahead] at allowed
      · simp [Succession.allows, unanswered] at allowed

theorem held_joiner (who : Neighbours) (message : PredecessorMessage)
    (same : heldPredecessor who message = who.joiner.endpoint.chars) : message = .joinReq := by
  have nonempty := who.joiner.endpoint.nonempty
  cases message with
  | joinReq => rfl
  | stabilizeReq => exact absurd same.symm who.different
  | predJoinCmt => exact absurd same.symm nonempty
  | predJoinAbrt => exact absurd same.symm nonempty
  | stabilizeSynReq => exact absurd same.symm nonempty
  | stabilizeNsynReq => exact absurd same.symm nonempty

theorem held_predecessor (who : Neighbours) (message : PredecessorMessage)
    (same : heldPredecessor who message = who.predecessor.endpoint.chars) : message = .stabilizeReq := by
  have nonempty := who.predecessor.endpoint.nonempty
  cases message with
  | stabilizeReq => rfl
  | joinReq => exact absurd same who.different
  | predJoinCmt => exact absurd same.symm nonempty
  | predJoinAbrt => exact absurd same.symm nonempty
  | stabilizeSynReq => exact absurd same.symm nonempty
  | stabilizeNsynReq => exact absurd same.symm nonempty

theorem safe_kept (who : Neighbours) (state next : Succession) (safe : state.Safe who)
    (predecessor : next.node.nodeList.predecessor = state.node.nodeList.predecessor) (installed : next.installed = state.installed) :
    next.Safe who := by
  refine ⟨?_, fun none_ => ?_, fun other some_ => ?_⟩
  · rw [predecessor]
    exact safe.neighbour
  · rw [predecessor]
    exact safe.before (installed.symm.trans none_)
  · exact safe.after other (installed.symm.trans some_)

theorem succession_decides (env : P2pmEnv) (who : Neighbours) (state next : Succession) (action : Succeeding)
    (holds : state.Holds who) (safe : state.Safe who) (taken : state.step env who action = some next) :
    next.Safe who ↔ ComesNext state action := by
  rcases succession_step env who state next action taken with ⟨message, node, code, act, allowed, same, done⟩ | ⟨node, act, same, kept, _⟩
  · obtain ⟨predecessor, _, answered⟩ := predecessor_message_result env who state.node node message code done
    subst same act
    cases message with
    | joinReq => exact ⟨fun _ => trivial, fun _ => safe_kept who state _ safe predecessor rfl⟩
    | predJoinAbrt => exact ⟨fun _ => trivial, fun _ => safe_kept who state _ safe predecessor rfl⟩
    | stabilizeNsynReq => exact ⟨fun _ => trivial, fun _ => safe_kept who state _ safe predecessor rfl⟩
    | stabilizeReq =>
        refine ⟨fun _ => trivial, fun _ => ?_⟩
        simp only [Succession.handled]
        split
        · exact safe_kept who state _ safe predecessor rfl
        · exact safe_kept who state _ safe predecessor rfl
    | predJoinCmt =>
        obtain ⟨before, last, held⟩ := installs_held who state holds _ allowed (Or.inl rfl)
        have predecessor : node.nodeList.predecessor = heldPredecessor who before := predecessor.trans held
        simp only [ComesNext, last, Option.some.injEq]
        constructor
        · intro safe
          exact held_joiner who before (predecessor.symm.trans (safe.after _ rfl))
        · intro asked
          rw [asked] at predecessor
          exact ⟨Or.inr predecessor, fun none_ => (nomatch none_), fun other some_ => Option.some.inj some_ ▸ predecessor⟩
    | stabilizeSynReq =>
        obtain ⟨before, last, held⟩ := installs_held who state holds _ allowed (Or.inr rfl)
        simp only [predecessorAfter] at predecessor
        simp only [ComesNext, last, Option.some.injEq]
        by_cases handling : state.node.currentStatus = .handlingStabilize
        · rw [if_pos handling, held] at predecessor
          constructor
          · intro next _
            rcases next.neighbour with old | new
            · exact held_predecessor who before (predecessor.symm.trans old)
            · -- the joiner has asked and not yet committed
              have asked := held_joiner who before (predecessor.symm.trans new)
              have pending := holds.pending (by rw [holds.asked (asked ▸ last)]; decide)
              exact absurd (new.symm.trans (next.before pending)) who.different
          · intro asked
            rw [asked handling] at predecessor
            exact ⟨Or.inl predecessor, fun _ => predecessor, safe.after⟩
        · rw [if_neg handling] at predecessor
          exact ⟨fun _ other => absurd other handling, fun _ => safe_kept who state _ safe predecessor rfl⟩
  · subst same
    refine ⟨fun _ => ?_, fun _ => safe_kept who state _ safe kept rfl⟩
    cases action with
    | handles message => exact absurd rfl (act message)
    | hears arrived => trivial
    | continues arrivals revents => trivial

-- In every run of a node that has the predecessor, whatever else it does.
theorem predecessor_installed (env : P2pmEnv) (who : Neighbours) (node : P2pm)
    (behind : node.nodeList.predecessor = who.predecessor.endpoint.chars) (actions : List Succeeding) :
    Runs.Throughout (Succession.step env who) (Succession.Safe who) (Succession.start node) actions ↔
      Runs.Meets (Succession.step env who) ComesNext (Succession.start node) actions := by
  refine Runs.throughout_iff_meets (Succession.step env who) (fun _ => True) ComesNext (Succession.Safe who)
    (Succession.Holds who) ?_ ?_ (Succession.start node) actions (fun _ _ => trivial) ?_ ?_
  · exact fun state action next _ holds taken => succession_holds env who state next action holds taken
  · exact fun state action next _ holds safe taken => succession_decides env who state next action holds safe taken
  · exact { held := fun message same => (nomatch same), first := fun _ => ⟨rfl, fun same => (nomatch same)⟩,
            asked := fun same => (nomatch same), pending := fun _ => rfl }
  · exact ⟨Or.inl behind, fun _ => behind, fun other same => (nomatch same)⟩

-- J joins between O and P, which is the node of the run.
def sampleNeighbours : Neighbours where
  joiner := { host := .little, identity := [74], endpoint := samplePeer 74 (by decide) }
  predecessor := { host := .little, identity := [79], endpoint := samplePeer 79 (by decide) }
  different := by decide

set_option maxRecDepth 20000 in
theorem predecessor_installed_sample :
    Runs.Throughout (Succession.step sampleP2pmEnv sampleNeighbours) (Succession.Safe sampleNeighbours)
      (Succession.start sampleP2pm) [.handles .joinReq, .handles .predJoinCmt] := by
  refine (predecessor_installed sampleP2pmEnv sampleNeighbours sampleP2pm rfl _).mpr ?_
  intro asked taken
  refine ⟨trivial, fun committed _ => ⟨?_, trivial⟩⟩
  have last : (Succession.step sampleP2pmEnv sampleNeighbours (Succession.start sampleP2pm) (.handles .joinReq)).map
      Succession.last = some (some .joinReq) := rfl
  rw [taken] at last
  exact Option.some.inj last

set_option maxRecDepth 20000 in
-- Between JOIN_REQ, which has been accepted, and PRED_JOIN_CMT the predecessor stabilises.
theorem joiner_forgotten :
    ∃ final, Runs.run (Succession.step sampleP2pmEnv sampleNeighbours) (Succession.start sampleP2pm)
        [.handles .joinReq, .handles .stabilizeReq, .handles .stabilizeSynReq, .handles .predJoinCmt] = some final ∧
      sampleP2pm.nodeList.predecessor = sampleNeighbours.predecessor.endpoint.chars ∧ final.installed = some [] ∧
      final.node.nodeList.predecessor = [] ∧ ¬ final.Safe sampleNeighbours := by
  refine ⟨_, rfl, rfl, rfl, rfl, fun safe => ?_⟩
  have same := safe.after [] rfl
  cases same

end Synergy
