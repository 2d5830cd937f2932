import Synergy.P2pmMessages

set_option autoImplicit false

namespace Synergy

-- What nodes that join send to the node they join behind. r is never 0 in p2pm_join.
inductive JoinMessage (ι : Type) where
  | getReq (joiner : ι)
  | joinCmt (joiner : ι) (r : UInt32) (list : Bytes) (nonzero : r ≠ 0)
  | joinAbrt (joiner : ι)

def JoinMessage.joiner {ι : Type} : JoinMessage ι → ι
  | .getReq joiner => joiner
  | .joinCmt joiner _ _ _ => joiner
  | .joinAbrt joiner => joiner

def JoinMessage.request {ι : Type} : JoinMessage ι → ServerCase
  | .getReq _ => .getReq
  | .joinCmt _ _ _ _ => .joinCmt
  | .joinAbrt _ => .joinAbrt

def JoinMessage.parts {ι : Type} (joiners : ι → Peer) : JoinMessage ι → List MsgPart
  | .getReq joiner => (joiners joiner).asks .getReq
  | .joinCmt joiner r list _ =>
      [wordPart (joiners joiner).host P2pmReqtypes.joinCmt.code true, wordPart (joiners joiner).host r true, ⟨list.map some, false⟩]
  | .joinAbrt joiner => (joiners joiner).tells .joinAbrt

-- A node others join behind. acknowledged: who got GET_ACK; commits: each JOIN_CMT, and successor and slot 0 right after it.
structure Admissions (ι : Type) where
  node : P2pm
  last : Option (JoinMessage ι)
  acknowledged : List ι
  commits : List (ι × Bytes × Bytes)

-- It handles such a message, or any other with what is left of those before, or it goes on with its pass.
inductive Admitting (ι : Type) where
  | handles (message : JoinMessage ι)
  | hears (arrived : List MsgPart)
  | continues (arrivals : Arrivals) (revents : Revents)

def joinCase : ServerCase → Bool
  | .getReq | .joinCmt | .joinAbrt => true
  | _ => false

-- The second part of a reply, which follows the identity of who is answered.
def answerPart (old next : P2pm) : Option MsgPart := (next.serverSent.drop old.serverSent.length)[1]?

variable {ι : Type} [DecidableEq ι]

def Admissions.handled (env : P2pmEnv) (state : Admissions ι) (next : P2pm) (message : JoinMessage ι) : Admissions ι :=
  match message with
  | .getReq joiner =>
      { state with
        node := next
        last := some message
        acknowledged :=
          if answerPart state.node next = some (wordPart env.host P2pmReptypes.getAck.code true) then joiner :: state.acknowledged
          else state.acknowledged }
  | .joinCmt joiner _ _ _ =>
      { state with
        node := next
        last := some message
        commits := state.commits ++ [(joiner, next.nodeList.successor, next.nodeList.slot 0)] }
  | .joinAbrt _ => { state with node := next, last := some message }

-- A JOIN_CMT comes only from who has got a GET_ACK.
def JoinMessage.allowed (acknowledged : List ι) : JoinMessage ι → Bool
  | .joinCmt joiner _ _ _ => joiner ∈ acknowledged
  | _ => true

def Admissions.step (env : P2pmEnv) (joiners : ι → Peer) (state : Admissions ι) : Admitting ι → Option (Admissions ι)
  | .handles message =>
      if state.node.serverInbox ≠ [] ∨ message.allowed state.acknowledged = false then none
      else
        match serveMessage env state.node (joiners message.joiner).identityPart (message.parts joiners) with
        | .ok (_, next) => some (state.handled env next message)
        | .error _ => none
  | .hears arrived =>
      match state.node.serverInbox ++ arrived with
      | [] => none
      | identity :: parts =>
          match (requestOf env parts).map joinCase, serveMessage env state.node identity parts with
          | some false, .ok (_, next) => some { state with node := next }
          | _, _ => none
  | .continues arrivals revents =>
      match loopSockets env { state.node.arrive arrivals with revents := revents } with
      | .ok next => some { state with node := next }
      | .error _ => none

def Admissions.start (node : P2pm) : Admissions ι := { node := node, last := none, acknowledged := [], commits := [] }

-- Each commit so far has installed the endpoint of the node that made it.
def Admissions.Installed (joiners : ι → Peer) (state : Admissions ι) : Prop :=
  ∀ commit ∈ state.commits, commit.2.1 = (joiners commit.1).endpoint.chars ∧ commit.2.2 = (joiners commit.1).endpoint.chars

-- The message that the node handled last, when it handles a JOIN_CMT, gave it the endpoint of who commits.
def CommitsLast (joiners : ι → Peer) (state : Admissions ι) : Admitting ι → Prop
  | .handles (.joinCmt joiner _ _ _) =>
      ∃ other, state.last = some (.getReq other) ∧ (joiners other).endpoint.chars = (joiners joiner).endpoint.chars
  | _ => True

-- What temp_successor holds.
def heldAfter (joiners : ι → Peer) : JoinMessage ι → Bytes
  | .getReq joiner => (joiners joiner).endpoint.chars
  | _ => []

structure Admissions.Holds (joiners : ι → Peer) (state : Admissions ι) : Prop where
  held : ∀ message, state.last = some message → state.node.nodeList.tempSuccessor = heldAfter joiners message
  first : state.last = none → state.acknowledged = []

omit [DecidableEq ι] in
theorem held_after_string (joiners : ι → Peer) (message : JoinMessage ι) :
    NulFree (heldAfter joiners message) ∧ (heldAfter joiners message).length < maxIdLen := by
  have empty : NulFree [] ∧ ([] : Bytes).length < maxIdLen := by decide
  cases message with
  | getReq joiner => exact ⟨(joiners joiner).endpoint.clean, (joiners joiner).endpoint.short⟩
  | joinCmt joiner r list nonzero => exact empty
  | joinAbrt joiner => exact empty

theorem get_req_holds (env : P2pmEnv) (self next : P2pm) (peer : Peer) (code : P2pmOpcodes)
    (done : getReqHandler env self = .ok (code, next)) (inbox : self.serverInbox = strParts peer.host peer.endpoint.chars) :
    next.nodeList.tempSuccessor = peer.endpoint.chars := by
  obtain ⟨told, sent, done⟩ := bind_ok _ _ _ done
  rw [send_clientid_part self told true sent] at done
  have received := recv_string_parts peer.host env.host peer.endpoint.chars peer.endpoint.clean peer.endpoint.short []
  rw [List.append_nil, ← inbox] at received
  obtain ⟨⟨buf, rest⟩, taken, done⟩ := bind_ok _ _ _ done
  have string : buf = .str peer.endpoint.chars := congrArg Prod.fst (Except.ok.inj (taken.symm.trans received))
  subst string
  dsimp only at done
  rw [if_neg (Nat.not_le.mpr peer.endpoint.short)] at done
  repeat' split at done
  all_goals cases done
  all_goals rfl

theorem join_commit_installs (env : P2pmEnv) (self next : P2pm) (r : UInt32) (buf : Bytes)
    (done : joinCommit env self r buf = .ok next) (clean : NulFree self.nodeList.tempSuccessor)
    (short : self.nodeList.tempSuccessor.length < maxIdLen) :
    next.nodeList.successor = self.nodeList.tempSuccessor ∧ next.nodeList.slot 0 = self.nodeList.tempSuccessor ∧
      next.nodeList.tempSuccessor = [] := by
  obtain ⟨same, _⟩ := join_commit_frame env self next r buf done
  have successor := congrArg (fun node => node.nodeList.successor) same
  have cleared := congrArg (fun node => node.nodeList.tempSuccessor) same
  refine ⟨successor, ?_, cleared⟩
  obtain ⟨list, written, done⟩ := bind_ok _ _ _ done
  obtain ⟨copied, listed, done⟩ := bind_ok _ _ _ done
  have first := copy_list_first _ copied buf r listed
  have slot : next.nodeList.slot 0 = copied.slot 0 := by
    dsimp only at done
    repeat' split at done
    all_goals cases done
    all_goals rfl
  have written := written_slot _ list _ (filled_length env _ _) written
  rw [slot, first, NodeInfo.slot]
  dsimp only
  rw [written]
  exact address_block_string env _ clean short

theorem join_cmt_installs (env : P2pmEnv) (self next : P2pm) (peer : Peer) (r : UInt32) (list : Bytes) (code : P2pmOpcodes)
    (nonzero : r ≠ 0) (done : joinCmtHandler env self = .ok (code, next))
    (inbox : self.serverInbox = [wordPart peer.host r true, ⟨list.map some, false⟩])
    (clean : NulFree self.nodeList.tempSuccessor) (short : self.nodeList.tempSuccessor.length < maxIdLen) :
    next.nodeList.successor = self.nodeList.tempSuccessor ∧ next.nodeList.slot 0 = self.nodeList.tempSuccessor ∧
      next.nodeList.tempSuccessor = [] := by
  obtain ⟨told, sent, done⟩ := bind_ok _ _ _ done
  rw [send_clientid_part self told true sent] at done
  obtain ⟨⟨word, rest⟩, taken, done⟩ := bind_ok _ _ _ done
  have received := recv_word_part peer.host env.host r true [⟨list.map some, false⟩]
  rw [← inbox] at received
  cases taken.symm.trans received
  dsimp only at done
  rw [if_neg nonzero] at done
  obtain ⟨committed, commit, done⟩ := bind_ok _ _ _ done
  cases done
  have installed := join_commit_installs env _ next r _ commit clean short
  exact installed

theorem join_case_other (request : ServerCase) (other : joinCase request = false) :
    request ∉ [ServerCase.getReq, .joinCmt, .joinAbrt] := by
  cases request with
  | getReq => cases other
  | joinCmt => cases other
  | joinAbrt => cases other
  | _ => simp

omit [DecidableEq ι] in
theorem join_message_served (env : P2pmEnv) (joiners : ι → Peer) (self next : P2pm) (message : JoinMessage ι) (code : P2pmOpcodes)
    (done : serveMessage env self (joiners message.joiner).identityPart (message.parts joiners) = .ok (code, next)) :
    ∃ clientid, serve env { self with clientid := clientid, serverInbox := (message.parts joiners).tail } message.request =
      .ok (code, next) := by
  obtain ⟨clientid, ubuf, inbox, _, received, served⟩ := serve_message_served env self next _ _ code done
  cases message with
  | getReq joiner =>
      rw [JoinMessage.parts, Peer.asks, recv_word_part] at received
      cases received
      exact ⟨clientid, served⟩
  | joinCmt joiner r list nonzero =>
      rw [JoinMessage.parts, recv_word_part] at received
      cases received
      exact ⟨clientid, served⟩
  | joinAbrt joiner =>
      rw [JoinMessage.parts, Peer.tells, recv_word_part] at received
      cases received
      exact ⟨clientid, served⟩

omit [DecidableEq ι] in
theorem join_message_holds (env : P2pmEnv) (joiners : ι → Peer) (self next : P2pm) (message : JoinMessage ι) (code : P2pmOpcodes)
    (string : message.request = .joinCmt →
      NulFree self.nodeList.tempSuccessor ∧ self.nodeList.tempSuccessor.length < maxIdLen)
    (done : serveMessage env self (joiners message.joiner).identityPart (message.parts joiners) = .ok (code, next)) :
    next.nodeList.tempSuccessor = heldAfter joiners message := by
  obtain ⟨clientid, served⟩ := join_message_served env joiners self next message code done
  cases message with
  | getReq joiner => exact get_req_holds env _ next (joiners joiner) code served rfl
  | joinCmt joiner r list nonzero =>
      obtain ⟨clean, short⟩ := string rfl
      obtain ⟨_, _, cleared⟩ := join_cmt_installs env _ next (joiners joiner) r list code nonzero served rfl clean short
      exact cleared
  | joinAbrt joiner =>
      cases served
      rfl

theorem commit_finds (joiners : ι → Peer) (state : Admissions ι) (message : JoinMessage ι) (holds : state.Holds joiners)
    (allowed : ¬ message.allowed state.acknowledged = false) (commit : message.request = .joinCmt) :
    ∃ before, state.last = some before ∧ state.node.nodeList.tempSuccessor = heldAfter joiners before := by
  cases last : state.last with
  | some before => exact ⟨before, rfl, holds.held before last⟩
  | none =>
      have nobody := holds.first last
      cases message with
      | getReq joiner => cases commit
      | joinAbrt joiner => cases commit
      | joinCmt joiner r list nonzero => simp [JoinMessage.allowed, nobody] at allowed

theorem commit_string (joiners : ι → Peer) (state : Admissions ι) (message : JoinMessage ι) (holds : state.Holds joiners)
    (allowed : ¬ message.allowed state.acknowledged = false) (commit : message.request = .joinCmt) :
    NulFree state.node.nodeList.tempSuccessor ∧ state.node.nodeList.tempSuccessor.length < maxIdLen := by
  obtain ⟨before, _, held⟩ := commit_finds joiners state message holds allowed commit
  rw [held]
  exact held_after_string joiners before

omit [DecidableEq ι] in
theorem other_message_keeps (env : P2pmEnv) (self next : P2pm) (identity : MsgPart) (parts : List MsgPart) (code : P2pmOpcodes)
    (other : (requestOf env parts).map joinCase = some false) (done : serveMessage env self identity parts = .ok (code, next)) :
    next.nodeList.tempSuccessor = self.nodeList.tempSuccessor := by
  obtain ⟨clientid, ubuf, inbox, _, received, served⟩ := serve_message_served env self next identity parts code done
  rw [requestOf, received] at other
  have kept := (serve_request_frame env _ next _ code served).tempSuccessor (join_case_other _ (Option.some.inj other))
  exact kept

theorem admissions_hold (env : P2pmEnv) (joiners : ι → Peer) (state next : Admissions ι) (action : Admitting ι)
    (holds : state.Holds joiners) (taken : state.step env joiners action = some next) : next.Holds joiners := by
  cases action with
  | handles message =>
      simp only [Admissions.step] at taken
      by_cases refused : state.node.serverInbox ≠ [] ∨ message.allowed state.acknowledged = false
      · rw [if_pos refused] at taken
        cases taken
      · rw [if_neg refused] at taken
        have allowed := fun no => refused (Or.inr no)
        split at taken
        · rename_i code node done
          have held := join_message_holds env joiners state.node node message code
            (commit_string joiners state message holds allowed) done
          cases message with
          | getReq joiner =>
              cases taken
              exact ⟨fun message same => Option.some.inj same ▸ held, fun none_ => nomatch none_⟩
          | joinCmt joiner r list nonzero =>
              cases taken
              exact ⟨fun message same => Option.some.inj same ▸ held, fun none_ => nomatch none_⟩
          | joinAbrt joiner =>
              cases taken
              exact ⟨fun message same => Option.some.inj same ▸ held, fun none_ => nomatch none_⟩
        · cases taken
  | hears arrived =>
      simp only [Admissions.step] at taken
      split at taken
      · cases taken
      · split at taken
        · rename_i identity parts _ _ _ code node other done
          have kept := other_message_keeps env state.node node identity parts code other done
          cases taken
          exact ⟨fun message same => kept.trans (holds.held message same), holds.first⟩
        · cases taken
  | continues arrivals revents =>
      simp only [Admissions.step] at taken
      split at taken
      · rename_i node done
        have kept := congrArg (fun node => node.nodeList.tempSuccessor) (loop_sockets_frame env _ node done).same
        cases taken
        exact ⟨fun message same => kept.trans (holds.held message same), holds.first⟩
      · cases taken

theorem admissions_decide (env : P2pmEnv) (joiners : ι → Peer) (state next : Admissions ι) (action : Admitting ι)
    (holds : state.Holds joiners) (good : state.Installed joiners) (taken : state.step env joiners action = some next) :
    next.Installed joiners ↔ CommitsLast joiners state action := by
  cases action with
  | handles message =>
      simp only [Admissions.step] at taken
      by_cases refused : state.node.serverInbox ≠ [] ∨ message.allowed state.acknowledged = false
      · rw [if_pos refused] at taken
        cases taken
      · rw [if_neg refused] at taken
        have allowed := fun no => refused (Or.inr no)
        split at taken
        · rename_i code node done
          cases message with
          | getReq joiner =>
              cases taken
              exact ⟨fun _ => trivial, fun _ => good⟩
          | joinAbrt joiner =>
              cases taken
              exact ⟨fun _ => trivial, fun _ => good⟩
          | joinCmt joiner r list nonzero =>
              obtain ⟨before, last, held⟩ := commit_finds joiners state _ holds allowed rfl
              obtain ⟨clean, short⟩ := held_after_string joiners before
              obtain ⟨clientid, served⟩ := join_message_served env joiners state.node node _ code done
              obtain ⟨successor, slot, _⟩ := join_cmt_installs env _ node (joiners joiner) r list code nonzero served rfl
                (held ▸ clean) (held ▸ short)
              have successor := successor.trans held
              have slot := slot.trans held
              cases taken
              simp only [Admissions.Installed, Admissions.handled, CommitsLast, last, Option.some.injEq, List.mem_append,
                List.mem_singleton, successor, slot]
              have positive := (joiners joiner).endpoint.nonempty
              constructor
              · intro installed
                obtain ⟨same, _⟩ := installed (joiner, heldAfter joiners before, heldAfter joiners before) (Or.inr rfl)
                cases before with
                | getReq other => exact ⟨other, rfl, same⟩
                | joinCmt other r list nonzero => exact absurd same.symm positive
                | joinAbrt other => exact absurd same.symm positive
              · rintro ⟨other, same, endpoint⟩ commit (old | new)
                · exact good commit old
                · rw [new, same]
                  exact ⟨endpoint, endpoint⟩
        · cases taken
  | hears arrived =>
      refine ⟨fun _ => trivial, fun _ => ?_⟩
      have kept : next.commits = state.commits := by
        simp only [Admissions.step] at taken
        repeat' split at taken
        all_goals cases taken
        rfl
      rw [Admissions.Installed, kept]
      exact good
  | continues arrivals revents =>
      refine ⟨fun _ => trivial, fun _ => ?_⟩
      have kept : next.commits = state.commits := by
        simp only [Admissions.step] at taken
        split at taken
        · cases taken
          rfl
        · cases taken
      rw [Admissions.Installed, kept]
      exact good

-- In every run of a node, whatever it was before.
theorem committed_join_installs (env : P2pmEnv) (joiners : ι → Peer) (node : P2pm) (actions : List (Admitting ι)) :
    Runs.Throughout (Admissions.step env joiners) (Admissions.Installed joiners) (Admissions.start node) actions ↔
      Runs.Meets (Admissions.step env joiners) (CommitsLast joiners) (Admissions.start node) actions := by
  refine Runs.throughout_iff_meets (Admissions.step env joiners) (fun _ => True) (CommitsLast joiners) (Admissions.Installed joiners)
    (Admissions.Holds joiners) ?_ ?_ (Admissions.start node) actions (fun _ _ => trivial) ?_ ?_
  · exact fun state action next _ holds taken => admissions_hold env joiners state next action holds taken
  · exact fun state action next _ holds good taken => admissions_decide env joiners state next action holds good taken
  · refine ⟨fun message same => ?_, fun _ => rfl⟩
    cases same
  · intro commit member
    cases member

-- Two nodes join at the same time: the second is refused, and the first commits the second.
def twoJoiners (second : Bool) : Peer :=
  { host := .little, identity := [74], endpoint := if second then samplePeer 66 (by decide) else samplePeer 65 (by decide) }

set_option maxRecDepth 20000 in
theorem refused_joiner_installed :
    ∃ final, Runs.run (Admissions.step sampleP2pmEnv twoJoiners) (Admissions.start sampleP2pm)
        [.handles (.getReq false), .handles (.getReq true),
          .handles (.joinCmt false 1 ([83] ++ List.replicate 255 0) (by decide))] = some final ∧
      final.acknowledged = [false] ∧ (twoJoiners false).endpoint.chars = [65] ∧ final.commits = [(false, [66], [66])] ∧
      ¬ final.Installed twoJoiners := by
  refine ⟨_, rfl, rfl, rfl, rfl, fun installed => ?_⟩
  have same := (installed (false, [66], [66]) (by decide)).1
  cases same

end Synergy
