import Synergy.Boundaries
import Synergy.TokenTransport

set_option autoImplicit false

namespace Synergy

-- What a node sends to the server of its successor, but for tokens: a word, or the request to stabilise with its own endpoint.
inductive Maintenance (env : P2pmEnv) : List MsgPart → Prop where
  | word (code : UInt32)
      (kind : code = P2pmReqtypes.pingReq.code ∨ code = P2pmReqtypes.stabilizeNsynReq.code ∨ code = P2pmReqtypes.stabilizeSynReq.code) :
      Maintenance env [wordPart env.host code false]
  | stabilizeReq : Maintenance env (wordPart env.host P2pmReqtypes.stabilizeReq.code true :: strParts env.host env.endpoint)

-- Only messages of maintenance have been sent since.
def Maintains (env : P2pmEnv) (old new : List MsgPart) : Prop :=
  ∃ messages : List (List MsgPart), new = old ++ messages.flatten ∧ ∀ message ∈ messages, Maintenance env message

theorem maintains_nothing (env : P2pmEnv) (sent : List MsgPart) : Maintains env sent sent := ⟨[], by simp, by simp⟩

theorem maintains_message (env : P2pmEnv) (sent message : List MsgPart) (is : Maintenance env message) :
    Maintains env sent (sent ++ message) := ⟨[message], by simp, by simpa using is⟩

theorem maintains_after (env : P2pmEnv) (old middle new : List MsgPart) (two : Maintains env middle new)
    (one : Maintains env old middle) : Maintains env old new := by
  obtain ⟨front, sameFront, frontIs⟩ := one
  obtain ⟨back, sameBack, backIs⟩ := two
  refine ⟨front ++ back, by rw [sameBack, sameFront, List.flatten_append, List.append_assoc], fun message member => ?_⟩
  rcases List.mem_append.mp member with early | late
  · exact frontIs message early
  · exact backIs message late

theorem maintains_ping (env : P2pmEnv) (sent : List MsgPart) : Maintains env sent (sent ++ [pingPart env]) :=
  maintains_message env sent _ (.word _ (Or.inl rfl))

theorem maintains_nsyn (env : P2pmEnv) (sent : List MsgPart) :
    Maintains env sent (sent ++ [wordPart env.host P2pmReqtypes.stabilizeNsynReq.code false]) :=
  maintains_message env sent _ (.word _ (Or.inr (Or.inl rfl)))

theorem maintains_syn (env : P2pmEnv) (sent : List MsgPart) :
    Maintains env sent (sent ++ [wordPart env.host P2pmReqtypes.stabilizeSynReq.code false]) :=
  maintains_message env sent _ (.word _ (Or.inr (Or.inr rfl)))

theorem stabilize_pinged_maintains (env : P2pmEnv) (self : P2pm) (sRecv : UInt32) :
    Maintains env self.successorSent (stabilizePinged env self sRecv).successorSent := by
  unfold stabilizePinged
  split
  · exact maintains_message env _ _ .stabilizeReq
  · exact maintains_ping env _

theorem stabilize_acked_maintains (env : P2pmEnv) (self next : P2pm) (sRecv : UInt32) (done : stabilizeAcked env self sRecv = .ok next) :
    Maintains env self.successorSent next.successorSent := by
  obtain ⟨⟨word, inbox⟩, _, done⟩ := bind_ok _ _ _ done
  dsimp only at done
  split at done
  · cases done
    exact maintains_nsyn env _
  · obtain ⟨⟨r, inbox⟩, _, done⟩ := bind_ok _ _ _ done
    cases r with
    | none =>
        cases done
        exact maintains_nsyn env _
    | some r =>
        dsimp only at done
        split at done
        · cases done
          exact maintains_nsyn env _
        · cases inbox with
          | nil =>
              cases done
              exact maintains_nsyn env _
          | cons part later =>
              obtain ⟨copied, _, done⟩ := bind_ok _ _ _ done
              cases done
              exact maintains_syn env _

theorem successor_readable_maintains (env : P2pmEnv) (self next : P2pm) (done : successorReadable env self = .ok next) :
    Maintains env self.successorSent next.successorSent := by
  unfold successorReadable at done
  dsimp only [zclockMono] at done
  split at done
  · cases done
  · obtain ⟨sRecv, _, done⟩ := bind_ok _ _ _ done
    split at done
    · cases done
      exact stabilize_pinged_maintains env _ sRecv
    · cases done
      exact stabilize_pinged_maintains env _ sRecv
    · cases done
      exact stabilize_pinged_maintains env _ sRecv
    · have maintains := stabilize_acked_maintains env _ next sRecv done
      exact maintains
    · cases done
      exact maintains_nothing env _

theorem successor_timeout_maintains (env : P2pmEnv) (self next : P2pm) (done : successorTimeout env self = .ok next) :
    Maintains env self.successorSent next.successorSent := by
  unfold successorTimeout at done
  dsimp only [zclockMono] at done
  have ended : ∀ before : P2pm, failOver env before = .ok next → before.successorSent = self.successorSent →
      Maintains env self.successorSent next.successorSent := by
    intro before done same
    rw [fail_over_silent env before next done, same]
    exact maintains_nothing env _
  split at done
  · cases done
    exact maintains_after env _ _ _ (maintains_ping env _) (maintains_ping env _)
  · cases done
    exact maintains_ping env _
  · exact ended _ done rfl
  · exact ended _ done rfl
  · cases done
    exact maintains_nothing env _

theorem successor_event_maintains (env : P2pmEnv) (self next : P2pm) (done : successorEvent env self = .ok next) :
    Maintains env self.successorSent next.successorSent := by
  unfold successorEvent at done
  split at done
  · exact successor_readable_maintains env self next done
  · dsimp only [zclockMono] at done
    split at done
    · have maintains := successor_timeout_maintains env _ next done
      exact maintains
    · split at done
      · cases done
        exact maintains_ping env _
      · split at done
        · cases done
          exact maintains_nothing env _
        · cases done
          exact maintains_nothing env _

theorem successor_handler_maintains (env : P2pmEnv) (self next : P2pm) (done : successorSocketHandler env self = .ok next) :
    next.sendHasToken = false ∧ ∃ middle, Maintains env self.successorSent middle ∧
      next.successorSent = middle ++ if self.sendHasToken then self.sendToken.parts env.host else [] := by
  obtain ⟨middle, event, done⟩ := bind_ok _ _ _ done
  have maintains := successor_event_maintains env self middle event
  have frame := successor_event_frame env self middle event
  have full : middle.sendHasToken = self.sendHasToken := congrArg (fun node => node.sendHasToken) frame.same
  have token : middle.sendToken = self.sendToken := congrArg (fun node => node.sendToken) frame.same
  unfold flushToken at done
  rw [← full, ← token]
  split at done
  · rename_i has
    rw [if_pos has]
    dsimp only [zclockMono] at done
    split at done
    · cases done
    · cases done
      exact ⟨rfl, middle.successorSent, maintains, rfl⟩
  · rename_i empty
    rw [if_neg empty]
    cases done
    exact ⟨by simpa using empty, _, maintains, (List.append_nil _).symm⟩

theorem loop_sockets_maintains (env : P2pmEnv) (self next : P2pm) (done : loopSockets env self = .ok next) :
    next.sendHasToken = false ∧ ∃ middle, Maintains env self.successorSent middle ∧
      next.successorSent = middle ++ if self.sendHasToken then self.sendToken.parts env.host else [] := by
  obtain ⟨middle, last, successor, predecessor, same⟩ := loop_sockets_parts env self next done
  obtain ⟨empty, sent⟩ := successor_handler_maintains env _ middle successor
  have frame := predecessor_handler_frame env env.depth middle last predecessor
  rw [stabilize_timer_frame env self] at sent
  have out : next.successorSent = middle.successorSent := by
    rw [same]
    exact congrArg (fun node => node.successorSent) frame.same
  have slot : next.sendHasToken = middle.sendHasToken := by
    rw [same]
    exact congrArg (fun node => node.sendHasToken) frame.same
  rw [out, slot]
  exact ⟨empty, sent⟩

-- What stands behind the code of a request that a member of the ring receives.
def RequestIs (env : P2pmEnv) (rMax : UInt32) (args : List MsgPart) : ServerCase → Prop
  | .getReq | .joinReq | .stabilizeReq | .tailFound | .headFound => args.length = 2
  | .joinCmt => args.length = commitFrames env.host args
  | .syncSlist => args.length = 3 ∧ slistComes env rMax args = true
  | .oneRingJoinReq => False
  | .token => args.length = 6
  | _ => args = []

-- A whole request to a member, and no token.
def WholeRequest (env : P2pmEnv) (rMax : UInt32) (message : List MsgPart) : Prop :=
  ∃ code args, recvWord env.host message = .ok (some code, args) ∧ ServerCase.ofCode code ≠ .token ∧
    RequestIs env rMax args (ServerCase.ofCode code)

def P2pm.Member (self : P2pm) : Prop := self.currentStatus = .member ∨ self.currentStatus = .handlingStabilize

theorem request_frames (env : P2pmEnv) (self : P2pm) (args later : List MsgPart) (request : ServerCase) (member : self.Member)
    (inbox : self.serverInbox = args ++ later) (is : RequestIs env self.nodeList.rMax args request) :
    framesOf env self request = args.length := by
  cases request with
  | getReq | joinReq | tailFound | headFound => exact is.symm
  | stabilizeReq =>
      rw [framesOf, if_pos (show self.currentStatus = .member ∨ self.currentStatus = .handlingStabilize from member)]
      exact is.symm
  | joinCmt =>
      rw [framesOf, inbox]
      cases args with
      | nil => cases is
      | cons part rest =>
          have size : (part :: rest).length = commitFrames env.host (part :: rest) := is
          rw [size]
          simp only [commitFrames, recvWord, List.cons_append]
          cases partWord env.host part with
          | error stop => rfl
          | ok word => rfl
  | syncSlist =>
      obtain ⟨size, comes⟩ := is
      rw [framesOf, inbox, size]
      obtain ⟨ttl, nr, list, rfl⟩ := List.length_eq_three.mp size
      have here : slistComes env self.nodeList.rMax ([ttl, nr, list] ++ later) = true := by
        simp only [slistComes, List.drop_succ_cons, List.drop_zero, recvWord, List.cons_append, List.nil_append] at comes ⊢
        cases read : partWord env.host nr with
        | error stop =>
            rw [read] at comes
            cases comes
        | ok word =>
            rw [read] at comes
            exact comes
      rw [if_pos here]
  | oneRingJoinReq => exact is.elim
  | token => exact is.symm
  | _ => rw [show args = [] from is]; rfl

-- A token whose buffers are as long as it says, and which fits its C types.
structure GenericToken.Sized (tk : GenericToken) : Prop where
  ttl : -2 ^ 31 ≤ tk.ttl ∧ tk.ttl < 2 ^ 31
  len1 : tk.len1 = tk.buf1.length
  len2 : tk.len2 = tk.buf2.length
  small1 : tk.buf1.length < 2 ^ 64
  small2 : tk.buf2.length < 2 ^ 64

-- generic_token_t as p2pmd gives it to the daemon. The daemon reads all of the endpoint.
def Token.raised (token : Token) : Option GenericToken :=
  (Pieces.written token.buf2).map fun buf2 =>
    { id := token.id, ttl := token.ttl.toInt, buf1 := token.buf1, buf2 := buf2, len1 := token.len1.toNat, len2 := token.len2.toNat }

theorem handed_lengths (tk : GenericToken) (sized : tk.Sized) :
    tk.handed.len1.toNat = tk.buf1.length ∧ tk.handed.len2.toNat = tk.buf2.length := by
  have first : (UInt64.ofNat tk.len1).toNat = tk.buf1.length := by rw [sized.len1, announced_length _ sized.small1]
  have second : (UInt64.ofNat tk.len2).toNat = tk.buf2.length := by rw [sized.len2, announced_length _ sized.small2]
  exact ⟨first, second⟩

theorem handed_carried (tk : GenericToken) (sized : tk.Sized) : tk.handed.carried = tk.handed := by
  obtain ⟨first, second⟩ := handed_lengths tk sized
  have size1 : tk.handed.buf1.length = tk.buf1.length := rfl
  have size2 : tk.handed.buf2.length = tk.buf2.length := List.length_map _
  rw [Token.carried, first, second, ← size1, ← size2, List.take_length, List.take_length, Nat.sub_self, Nat.sub_self,
    List.replicate_zero, List.append_nil, List.append_nil]

theorem handed_raised (tk : GenericToken) (sized : tk.Sized) : tk.handed.raised = some tk := by
  obtain ⟨first, second⟩ := handed_lengths tk sized
  have ttl : (Int32.ofInt tk.ttl).toInt = tk.ttl := Int32.toInt_ofInt_of_le sized.ttl.1 sized.ttl.2
  rw [Token.raised, first, second, ← sized.len1, ← sized.len2]
  simp only [GenericToken.handed, Pieces.written_map_some, Option.map_some, ttl]

def borne (env : P2pmEnv) (message : List MsgPart) : List GenericToken :=
  match recvWord env.host message with
  | .ok (some code, args) =>
      if ServerCase.ofCode code = .token then
        match recvToken env.host Token.none args with
        | .ok (token, _) => token.raised.toList
        | .error _ => []
      else []
  | _ => []

theorem borne_request (env : P2pmEnv) (rMax : UInt32) (message : List MsgPart) (is : WholeRequest env rMax message) :
    borne env message = [] := by
  obtain ⟨code, args, received, other, _⟩ := is
  simp only [borne, received, if_neg other]

theorem token_case : ServerCase.ofCode P2pmReqtypes.token.code = .token := rfl

theorem borne_token (sender : HostOrder) (env : P2pmEnv) (tk : GenericToken) (sized : tk.Sized) :
    borne env (tk.handed.parts sender) = [tk] := by
  have first : recvWord env.host (tk.handed.parts sender) = .ok (some P2pmReqtypes.token.code, (tk.handed.parts sender).tail) :=
    recv_word_part sender env.host _ true _
  have rest := recv_token_carried sender env.host tk.handed Token.none []
  rw [List.append_nil, handed_carried tk sized] at rest
  simp only [borne, first, token_case, if_true, rest, handed_raised tk sized, Option.toList_some]

-- What may come to the server of a member: behind its identity a whole request, or a token.
def RingMessage (env : P2pmEnv) (rMax : UInt32) (message : List MsgPart) : Prop :=
  WholeRequest env rMax message ∨ ∃ (sender : HostOrder) (tk : GenericToken), tk.Sized ∧ message = tk.handed.parts sender

theorem maintenance_request (sender receiver : P2pmEnv) (rMax : UInt32) (message : List MsgPart) (is : Maintenance sender message) :
    WholeRequest receiver rMax message := by
  cases is with
  | word code kind =>
      refine ⟨code, [], recv_word_part sender.host receiver.host code false [], ?_⟩
      rcases kind with kind | kind | kind
      all_goals rw [kind]
      all_goals exact ⟨by decide, rfl⟩
  | stabilizeReq =>
      exact ⟨_, _, recv_word_part sender.host receiver.host _ true _, by decide, rfl⟩

theorem maintenance_message (env : P2pmEnv) (message : List MsgPart) (is : Maintenance env message) :
    Multipart.Message MsgPart.more message := by
  cases is with
  | word code kind => exact ⟨[], _, rfl, by simp, rfl⟩
  | stabilizeReq => exact ⟨[_, _], _, rfl, by simp [wordPart], rfl⟩

theorem token_message (host : HostOrder) (token : Token) : Multipart.Message MsgPart.more (token.parts host) :=
  ⟨(token.parts host).take 6, ⟨token.buf2.take token.len2.toNat, false⟩, rfl, by simp [Token.parts, wordPart, longPart], rfl⟩

-- What a pass has received: nothing to pass up, or one token.
def TakesIn (tokens : List GenericToken) (next : P2pm) : Prop :=
  (tokens = [] ∧ next.recvHasToken = false) ∨
    ∃ tk, tk.Sized ∧ tokens = [tk] ∧ next.recvHasToken = true ∧ next.recvToken = tk.handed

theorem served_message (env : P2pmEnv) (self next : P2pm) (identity : MsgPart) (message later : List MsgPart) (code : P2pmOpcodes)
    (member : self.Member) (is : RingMessage env self.nodeList.rMax message) (empty : self.recvHasToken = false)
    (done : serveMessage env self identity (message ++ later) = .ok (code, next)) :
    next.serverInbox = later ∧ TakesIn (borne env message) next := by
  rcases is with request | ⟨sender, tk, sized, same⟩
  · obtain ⟨ubuf, args, first, other, is⟩ := request
    obtain ⟨clientid, word, inbox, _, received, served⟩ := serve_message_served env self next identity _ code done
    have split : word = some ubuf ∧ inbox = args ++ later := by
      cases message with
      | nil => cases first
      | cons part rest =>
          rw [List.cons_append, recvWord] at received
          rw [recvWord] at first
          cases read : partWord env.host part with
          | error stop =>
              rw [read] at first
              cases first
          | ok value =>
              rw [read] at first received
              cases first
              cases received
              exact ⟨rfl, rfl⟩
    obtain ⟨rfl, rfl⟩ := split
    have serves := serve_serves env _ next _ code served
    have frames := request_frames env { self with clientid := clientid, serverInbox := args ++ later } args later _ member rfl is
    have kept := (serve_request_frame env _ next _ code served).received other
    refine ⟨?_, Or.inl ⟨borne_request env _ message ⟨ubuf, args, first, other, is⟩, kept.trans empty⟩⟩
    have left := serves.left
    rw [Option.getD_some, frames] at left
    exact left.trans List.drop_left
  · rw [same] at done ⊢
    obtain ⟨full, carried⟩ := served_carried sender env self next identity tk.handed later code done
    obtain ⟨clientid, word, inbox, _, received, served⟩ := serve_message_served env self next identity _ code done
    have first := recv_word_part sender env.host P2pmReqtypes.token.code true ((tk.handed.parts sender).tail ++ later)
    obtain ⟨rfl, rfl⟩ := Prod.mk.inj (Except.ok.inj (received.symm.trans first))
    have serves := serve_serves env _ next _ code served
    rw [Option.getD_some, token_case] at serves
    refine ⟨serves.left, Or.inr ⟨tk, sized, borne_token sender env tk sized, full, ?_⟩⟩
    rw [carried, handed_carried tk sized]

-- Messages as they stand in an inbox, each behind the identity of its sender.
def inboxOf (messages : List (MsgPart × List MsgPart)) : List MsgPart := (messages.map fun one => one.1 :: one.2).flatten

theorem inbox_append (front back : List (MsgPart × List MsgPart)) : inboxOf (front ++ back) = inboxOf front ++ inboxOf back := by
  rw [inboxOf, List.map_append, List.flatten_append]
  rfl

def brought (env : P2pmEnv) (messages : List (MsgPart × List MsgPart)) : List GenericToken := messages.flatMap fun one => borne env one.2

-- What a pass does to a member: it takes messages from the front, none or one, keeps what it is to pass up, and has nothing
-- left to send on.
structure Pass (env : P2pmEnv) (messages front left : List (MsgPart × List MsgPart)) (old next : P2pm) : Prop where
  split : messages = front ++ left
  inbox : next.serverInbox = inboxOf left
  received : TakesIn (brought env front) next
  idle : next.sendHasToken = false
  sends : ∃ middle, Maintains env old.successorSent middle ∧
    next.successorSent = middle ++ if old.sendHasToken then old.sendToken.parts env.host else []
  rMax : next.nodeList.rMax = old.nodeList.rMax

theorem loop_server_pass (env : P2pmEnv) (self next : P2pm) (code : P2pmOpcodes) (messages : List (MsgPart × List MsgPart))
    (member : self.Member) (waiting : self.serverInbox = inboxOf messages)
    (each : ∀ one ∈ messages, RingMessage env self.nodeList.rMax one.2)
    (lazy : self.revents.server = true → messages = [] → self.sendHasToken = false) (empty : self.recvHasToken = false)
    (done : p2pmLoopServer env self = .ok (code, next)) : ∃ front left, Pass env messages front left self next := by
  unfold p2pmLoopServer at done
  by_cases readable : self.revents.server = true
  · rw [if_pos readable, waiting] at done
    cases messages with
    | nil =>
        cases done
        refine ⟨[], [], rfl, waiting, Or.inl ⟨rfl, empty⟩, lazy readable rfl, ?_, rfl⟩
        rw [lazy readable rfl]
        exact ⟨self.successorSent, maintains_nothing env _, (List.append_nil _).symm⟩
    | cons one left =>
        obtain ⟨⟨answer, served⟩, serve, done⟩ := bind_ok _ _ _ done
        obtain ⟨looped, loop, done⟩ := bind_ok _ _ _ done
        cases done
        have frame := (serve_message_frame env self served one.1 _ answer serve).same
        obtain ⟨inbox, received⟩ := served_message env self served one.1 one.2 (inboxOf left) answer member
          (each one (List.mem_cons_self ..)) empty serve
        obtain ⟨idle, middle, maintains, sent⟩ := loop_sockets_maintains env served next loop
        have after := (loop_sockets_frame env served next loop).same
        have out : served.successorSent = self.successorSent := congrArg (fun node => node.successorSent) frame
        have full : served.sendHasToken = self.sendHasToken := congrArg (fun node => node.sendHasToken) frame
        have token : served.sendToken = self.sendToken := congrArg (fun node => node.sendToken) frame
        rw [out] at maintains
        rw [full, token] at sent
        refine ⟨[one], left, rfl, ?_, ?_, idle, ⟨middle, maintains, sent⟩, ?_⟩
        · rw [after]
          exact inbox
        · rw [after, brought, List.flatMap_singleton]
          exact received
        · rw [after, frame]
  · rw [if_neg readable] at done
    obtain ⟨looped, loop, done⟩ := bind_ok _ _ _ done
    cases done
    have after := (loop_sockets_frame env self next loop).same
    obtain ⟨idle, sends⟩ := loop_sockets_maintains env self next loop
    refine ⟨[], messages, rfl, ?_, Or.inl ⟨rfl, ?_⟩, idle, sends, ?_⟩
    all_goals rw [after]
    · exact waiting
    · exact empty

end Synergy
