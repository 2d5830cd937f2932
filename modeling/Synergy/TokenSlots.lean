import Synergy.P2pmMessages
import Synergy.Lib.Multipart

set_option autoImplicit false

namespace Synergy

def isTokenMessage (host : HostOrder) (message : List MsgPart) : Bool :=
  message.head? = some (wordPart host P2pmReqtypes.token.code true)

-- The P2PM_TOKEN messages among what has been sent on a socket.
def tokenMessages (host : HostOrder) (parts : List MsgPart) : List (List MsgPart) :=
  (Multipart.receive MsgPart.more [] parts).1.filter (isTokenMessage host)

def Whole (parts : List MsgPart) : Prop := Multipart.Complete MsgPart.more (fun _ => True) parts

-- Whole messages have been sent since, and those of tokens are the given ones.
def SendsOn (host : HostOrder) (old new : List MsgPart) (tokens : List (List MsgPart)) : Prop :=
  ∃ messages : List (List MsgPart), new = old ++ messages.flatten ∧ (∀ message ∈ messages, Multipart.Message MsgPart.more message) ∧
    messages.filter (isTokenMessage host) = tokens

theorem sends_nothing (host : HostOrder) (sent : List MsgPart) : SendsOn host sent sent [] := ⟨[], by simp, by simp, rfl⟩

theorem sends_message (host : HostOrder) (sent message : List MsgPart) (whole : Multipart.Message MsgPart.more message) :
    SendsOn host sent (sent ++ message) ([message].filter (isTokenMessage host)) := ⟨[message], by simp, by simp [whole], rfl⟩

theorem sends_after (host : HostOrder) (old middle new : List MsgPart) (first second : List (List MsgPart))
    (two : SendsOn host middle new second) (one : SendsOn host old middle first) : SendsOn host old new (first ++ second) := by
  obtain ⟨front, sameFront, wholeFront, firsts⟩ := one
  obtain ⟨back, sameBack, wholeBack, seconds⟩ := two
  refine ⟨front ++ back, ?_, fun message member => ?_, ?_⟩
  · rw [sameBack, sameFront, List.flatten_append, List.append_assoc]
  · rcases List.mem_append.mp member with early | late
    · exact wholeFront message early
    · exact wholeBack message late
  · rw [List.filter_append, firsts, seconds]

theorem sends_tokens (host : HostOrder) (old new : List MsgPart) (tokens : List (List MsgPart)) (whole : Whole old)
    (sends : SendsOn host old new tokens) : Whole new ∧ tokenMessages host new = tokenMessages host old ++ tokens := by
  obtain ⟨before, same, each⟩ := whole
  obtain ⟨messages, added, wholes, filtered⟩ := sends
  have all : ∀ message ∈ before ++ messages, Multipart.Message MsgPart.more message := by
    intro message member
    rcases List.mem_append.mp member with early | late
    · exact (each message early).1
    · exact wholes message late
  have joined : new = (before ++ messages).flatten := by rw [added, same, List.flatten_append]
  refine ⟨⟨before ++ messages, joined, fun message member => ⟨all message member, trivial⟩⟩, ?_⟩
  rw [tokenMessages, tokenMessages, joined, same, Multipart.receive_messages MsgPart.more _ all,
    Multipart.receive_messages MsgPart.more before fun message member => (each message member).1, List.filter_append, filtered]

theorem sends_word (host : HostOrder) (sent : List MsgPart) (code : UInt32) : SendsOn host sent
    (sent ++ [wordPart host code false]) [] := by
  have whole : Multipart.Message MsgPart.more [wordPart host code false] := ⟨[], _, rfl, by simp, rfl⟩
  have sends := sends_message host sent _ whole
  have other : ¬ isTokenMessage host [wordPart host code false] = true := by
    simp [isTokenMessage, wordPart]
  rwa [List.filter_cons_of_neg other, List.filter_nil] at sends

theorem word_part_injective (host : HostOrder) (a b : UInt32) (more : Bool) (same : wordPart host a more = wordPart host b more) :
    a = b := by
  have first := part_word host host a more
  rw [same, part_word] at first
  exact (Except.ok.inj first).symm

theorem sends_request (host : HostOrder) (sent : List MsgPart) (code : UInt32) (endpoint : Bytes) (other : code ≠ P2pmReqtypes.token.code) :
    SendsOn host sent (sent ++ wordPart host code true :: strParts host endpoint) [] := by
  have whole : Multipart.Message MsgPart.more (wordPart host code true :: strParts host endpoint) :=
    ⟨[wordPart host code true, ⟨(p2pmSendStr host endpoint).1.map some, true⟩], ⟨(p2pmSendStr host endpoint).2.map some, false⟩,
      rfl, by simp [wordPart], rfl⟩
  have sends := sends_message host sent _ whole
  have different : ¬ isTokenMessage host (wordPart host code true :: strParts host endpoint) = true := by
    simp only [isTokenMessage, List.head?_cons, Option.some.injEq, decide_eq_true_eq]
    exact fun same => other (word_part_injective host _ _ _ same)
  rwa [List.filter_cons_of_neg different, List.filter_nil] at sends

theorem sends_token (host : HostOrder) (sent : List MsgPart) (token : Token) :
    SendsOn host sent (sent ++ token.parts host) [token.parts host] := by
  have whole : Multipart.Message MsgPart.more (token.parts host) :=
    ⟨(token.parts host).take 6, ⟨token.buf2.take token.len2.toNat, false⟩, rfl, by simp [Token.parts, wordPart, longPart], rfl⟩
  have sends := sends_message host sent _ whole
  have is : isTokenMessage host (token.parts host) = true := by
    simp [isTokenMessage, Token.parts]
  rwa [List.filter_cons_of_pos is, List.filter_nil] at sends

theorem stabilize_pinged_sends (env : P2pmEnv) (self : P2pm) (sRecv : UInt32) :
    SendsOn env.host self.successorSent (stabilizePinged env self sRecv).successorSent [] := by
  unfold stabilizePinged
  split
  · exact sends_request env.host _ _ env.endpoint (by decide)
  · exact sends_word env.host _ _

theorem stabilize_acked_sends (env : P2pmEnv) (self next : P2pm) (sRecv : UInt32) (done : stabilizeAcked env self sRecv = .ok next) :
    SendsOn env.host self.successorSent next.successorSent [] := by
  obtain ⟨⟨word, inbox⟩, _, done⟩ := bind_ok _ _ _ done
  dsimp only at done
  split at done
  · cases done
    exact sends_word env.host _ _
  · obtain ⟨⟨r, inbox⟩, _, done⟩ := bind_ok _ _ _ done
    cases r with
    | none =>
        cases done
        exact sends_word env.host _ _
    | some r =>
        dsimp only at done
        split at done
        · cases done
          exact sends_word env.host _ _
        · cases inbox with
          | nil =>
              cases done
              exact sends_word env.host _ _
          | cons part later =>
              obtain ⟨copied, _, done⟩ := bind_ok _ _ _ done
              cases done
              exact sends_word env.host _ _

theorem successor_readable_sends (env : P2pmEnv) (self next : P2pm) (done : successorReadable env self = .ok next) :
    SendsOn env.host self.successorSent next.successorSent [] := by
  unfold successorReadable at done
  dsimp only [zclockMono] at done
  split at done
  · cases done
  · obtain ⟨sRecv, _, done⟩ := bind_ok _ _ _ done
    split at done
    · cases done
      exact stabilize_pinged_sends env _ sRecv
    · cases done
      exact stabilize_pinged_sends env _ sRecv
    · cases done
      exact stabilize_pinged_sends env _ sRecv
    · have sends := stabilize_acked_sends env _ next sRecv done
      exact sends
    · cases done
      exact sends_nothing env.host _

theorem fail_over_silent (env : P2pmEnv) (self next : P2pm) (done : failOver env self = .ok next) :
    next.successorSent = self.successorSent := by
  obtain ⟨address, _, done⟩ := bind_ok _ _ _ done
  split at done
  · obtain ⟨list, _, done⟩ := bind_ok _ _ _ done
    obtain ⟨fixed, _, done⟩ := bind_ok _ _ _ done
    obtain ⟨first, _, done⟩ := bind_ok _ _ _ done
    split at done
    · cases done
    · cases done
      rfl
  · cases done
    rfl

theorem ping_again_sends (env : P2pmEnv) (self : P2pm) (expected : P2pmExpectedActions) :
    SendsOn env.host self.successorSent (pingAgain env self expected).successorSent [] := sends_word env.host _ _

theorem successor_timeout_sends (env : P2pmEnv) (self next : P2pm) (done : successorTimeout env self = .ok next) :
    SendsOn env.host self.successorSent next.successorSent [] := by
  unfold successorTimeout at done
  dsimp only [zclockMono] at done
  have ended : ∀ before : P2pm, failOver env before = .ok next → before.successorSent = self.successorSent →
      SendsOn env.host self.successorSent next.successorSent [] := by
    intro before done same
    rw [fail_over_silent env before next done, same]
    exact sends_nothing env.host _
  split at done
  · cases done
    exact sends_after env.host _ _ _ [] [] (ping_again_sends env _ .pingAndStabilizeReq2) (ping_again_sends env _ .pingAndStabilizeReq1)
  · cases done
    exact ping_again_sends env _ .pingAndStabilizeReq2
  · exact ended _ done rfl
  · exact ended _ done rfl
  · cases done
    exact sends_nothing env.host _

theorem successor_event_sends (env : P2pmEnv) (self next : P2pm) (done : successorEvent env self = .ok next) :
    SendsOn env.host self.successorSent next.successorSent [] := by
  unfold successorEvent at done
  split at done
  · exact successor_readable_sends env self next done
  · dsimp only [zclockMono] at done
    split at done
    · have sends := successor_timeout_sends env _ next done
      exact sends
    · split at done
      · cases done
        exact sends_word env.host _ _
      · split at done
        · cases done
          exact sends_nothing env.host _
        · cases done
          exact sends_nothing env.host _

theorem successor_handler_sends (env : P2pmEnv) (self next : P2pm) (done : successorSocketHandler env self = .ok next) :
    next.sendHasToken = false ∧
      SendsOn env.host self.successorSent next.successorSent (if self.sendHasToken then [self.sendToken.parts env.host] else []) := by
  obtain ⟨middle, event, done⟩ := bind_ok _ _ _ done
  have sends := successor_event_sends env self middle event
  have frame := successor_event_frame env self middle event
  have full : middle.sendHasToken = self.sendHasToken := congrArg (fun node => node.sendHasToken) frame.same
  have token : middle.sendToken = self.sendToken := congrArg (fun node => node.sendToken) frame.same
  unfold flushToken at done
  rw [← full, ← token]
  split at done
  · rename_i full
    rw [if_pos full]
    dsimp only [zclockMono] at done
    split at done
    · cases done
    · cases done
      exact ⟨rfl, sends_after env.host _ _ _ [] _ (sends_token env.host _ _) sends⟩
  · rename_i empty
    rw [if_neg empty]
    cases done
    exact ⟨by simpa using empty, sends⟩

def Token.Fits (token : Token) : Prop := token.buf1.length = token.len1.toNat ∧ token.buf2.length = token.len2.toNat

theorem recv_token_parts (sender receiver : HostOrder) (token before : Token) (fits : token.Fits) (rest : List MsgPart) :
    recvToken receiver before ((token.parts sender).tail ++ rest) = .ok (token, rest) := by
  obtain ⟨size1, size2⟩ := fits
  have first : token.buf1.take token.len1.toNat = token.buf1 := List.take_of_length_le (Nat.le_of_eq size1)
  have second : token.buf2.take token.len2.toNat = token.buf2 := List.take_of_length_le (Nat.le_of_eq size2)
  simp [recvToken, recvTokenBuf, Token.parts, first, second, size1, size2, bind, Except.bind, pure, Except.pure]

-- The token that goes up the pipe is the one the message was made of, whoever has made it.
def Delivered (token : Token) (message : List MsgPart) : Prop :=
  ∀ (sender : HostOrder) (identity : MsgPart) (sent : Token), sent.Fits → message = identity :: sent.parts sender → token = sent

-- The P2PM_TOKEN message that the pass of the server receives, if it receives one: identity, code and six fields.
def receivedIn (env : P2pmEnv) (self : P2pm) : List (List MsgPart) :=
  match self.revents.server, self.serverInbox with
  | true, identity :: later => if requestOf env later = some .token then [(identity :: later).take 8] else []
  | _, _ => []

theorem served_token (env : P2pmEnv) (self next : P2pm) (identity : MsgPart) (later : List MsgPart) (code : P2pmOpcodes)
    (empty : self.recvHasToken = false) (done : serveMessage env self identity later = .ok (code, next)) :
    (requestOf env later = some .token ∧ next.recvHasToken = true ∧ Delivered next.recvToken ((identity :: later).take 8)) ∨
      (requestOf env later ≠ some .token ∧ next.recvHasToken = false) := by
  obtain ⟨clientid, ubuf, inbox, _, received, served⟩ := serve_message_served env self next identity later code done
  rw [requestOf, received]
  by_cases token : ServerCase.ofCode (ubuf.getD env.strayWord) = .token
  · rw [token] at served
    obtain ⟨taken, frame⟩ := token_frame env _ next code served
    refine Or.inl ⟨congrArg some token, congrArg (fun node => node.recvHasToken) frame, fun sender who sent fits same => ?_⟩
    have shape : later = sent.parts sender ++ later.drop 7 := by
      rw [List.take_succ_cons] at same
      rw [← (List.cons.inj same).2, List.take_append_drop]
    have rest : inbox = (sent.parts sender).tail ++ later.drop 7 := by
      have first := recv_word_part sender env.host P2pmReqtypes.token.code true ((sent.parts sender).tail ++ later.drop 7)
      rw [shape] at received
      exact congrArg Prod.snd (Except.ok.inj (received.symm.trans first))
    have whole := recv_token_parts sender env.host sent self.recvToken fits (later.drop 7)
    rw [← rest] at whole
    exact congrArg Prod.fst (Except.ok.inj (taken.symm.trans whole))
  · have kept := (serve_request_frame env _ next _ code served).received token
    exact Or.inr ⟨fun same => token (Option.some.inj same), kept.trans empty⟩

theorem loop_sockets_tokens (env : P2pmEnv) (self next : P2pm) (done : loopSockets env self = .ok next) :
    next.sendHasToken = false ∧
      SendsOn env.host self.successorSent next.successorSent (if self.sendHasToken then [self.sendToken.parts env.host] else []) := by
  obtain ⟨middle, last, successor, predecessor, same⟩ := loop_sockets_parts env self next done
  obtain ⟨empty, sends⟩ := successor_handler_sends env _ middle successor
  have frame := predecessor_handler_frame env env.depth middle last predecessor
  have timer := stabilize_timer_frame env self
  have before : (stabilizeTimer env self).successorSent = self.successorSent ∧
      (stabilizeTimer env self).sendHasToken = self.sendHasToken ∧ (stabilizeTimer env self).sendToken = self.sendToken := by
    rw [timer]
    exact ⟨rfl, rfl, rfl⟩
  rw [before.1, before.2.1, before.2.2] at sends
  have sent : next.successorSent = middle.successorSent := by
    rw [same]
    exact congrArg (fun node => node.successorSent) frame.same
  have slot : next.sendHasToken = middle.sendHasToken := by
    rw [same]
    exact congrArg (fun node => node.sendHasToken) frame.same
  rw [sent, slot]
  exact ⟨empty, sends⟩

theorem loop_server_tokens (env : P2pmEnv) (self next : P2pm) (code : P2pmOpcodes) (empty : self.recvHasToken = false)
    (done : p2pmLoopServer env self = .ok (code, next)) :
    (self.revents.server = true ∧ self.serverInbox = [] ∧ next = self) ∨
      (next.sendHasToken = false ∧
        SendsOn env.host self.successorSent next.successorSent (if self.sendHasToken then [self.sendToken.parts env.host] else []) ∧
        ((receivedIn env self = [] ∧ next.recvHasToken = false) ∨
          ∃ message, receivedIn env self = [message] ∧ next.recvHasToken = true ∧ Delivered next.recvToken message)) := by
  unfold p2pmLoopServer at done
  by_cases readable : self.revents.server = true
  · rw [if_pos readable] at done
    cases inbox : self.serverInbox with
    | nil =>
        rw [inbox] at done
        cases done
        exact Or.inl ⟨readable, rfl, rfl⟩
    | cons identity later =>
        rw [inbox] at done
        obtain ⟨⟨answer, served⟩, serve, done⟩ := bind_ok _ _ _ done
        obtain ⟨looped, loop, done⟩ := bind_ok _ _ _ done
        cases done
        have frame := (serve_message_frame env self served identity later answer serve).same
        obtain ⟨slot, sends⟩ := loop_sockets_tokens env served next loop
        have sent : served.successorSent = self.successorSent := congrArg (fun node => node.successorSent) frame
        have full : served.sendHasToken = self.sendHasToken := congrArg (fun node => node.sendHasToken) frame
        have token : served.sendToken = self.sendToken := congrArg (fun node => node.sendToken) frame
        rw [sent, full, token] at sends
        have has : next.recvHasToken = served.recvHasToken :=
          congrArg (fun node => node.recvHasToken) (loop_sockets_frame env served next loop).same
        have received : next.recvToken = served.recvToken :=
          congrArg (fun node => node.recvToken) (loop_sockets_frame env served next loop).same
        refine Or.inr ⟨slot, sends, ?_⟩
        rw [receivedIn, readable, inbox, has, received]
        rcases served_token env self served identity later answer empty serve with ⟨token, full, delivered⟩ | ⟨other, none_⟩
        · exact Or.inr ⟨(identity :: later).take 8, if_pos token, full, delivered⟩
        · exact Or.inl ⟨if_neg other, none_⟩
  · rw [if_neg readable] at done
    obtain ⟨looped, loop, done⟩ := bind_ok _ _ _ done
    cases done
    obtain ⟨slot, sends⟩ := loop_sockets_tokens env self next loop
    have has : next.recvHasToken = self.recvHasToken :=
      congrArg (fun node => node.recvHasToken) (loop_sockets_frame env self next loop).same
    refine Or.inr ⟨slot, sends, Or.inl ⟨?_, has.trans empty⟩⟩
    rw [receivedIn, Bool.eq_false_iff.mpr readable]

def PipeMessage.asToken : PipeMessage → Option Token
  | .token passed => some passed
  | .endpoint _ => none

def tokensUp (pipe : List PipeMessage) : List Token := pipe.filterMap PipeMessage.asToken

-- taken: the tokens of the TSD_P2PMD_SEND_TOKEN commands taken from the pipe. received: the P2PM_TOKEN messages received.
structure TokenTraffic where
  actor : P2pmdActor
  taken : List Token
  received : List (List MsgPart)

def PipeCommand.tokens : PipeCommand → List Token
  | .sendToken token => [token]
  | _ => []

-- What the command of a turn has to send, when it comes to taking it.
def takenIn (actor : P2pmdActor) : ActorTurn → List Token
  | .polls _ revents command =>
      if actor.node.successorPoller ∈ actor.node.closed ∨ actor.node.predecessorPoller ∈ actor.node.closed then []
      else if revents.pipe then command.tokens else []
  | _ => []

def TokenTraffic.step (env : P2pmEnv) (state : TokenTraffic) (turn : ActorTurn) : Option TokenTraffic :=
  match state.actor.step env turn with
  | none => none
  | some actor =>
      some { actor := actor
             taken := state.taken ++ takenIn state.actor turn
             received := state.received ++
               if (state.actor.polled turn).terminated then [] else receivedIn env (state.actor.polled turn).node }

def TokenTraffic.start (node : P2pm) : TokenTraffic :=
  { actor := { node := node, pipe := [], again := false, nextTimeo := 0, terminated := false }, taken := [], received := [] }

-- What server_socket has when zmq_poll reports it readable.
def HasMessage (state : TokenTraffic) : ActorTurn → Prop
  | .polls arrivals revents _ => revents.server = true → state.actor.node.serverInbox ++ arrivals.server ≠ []
  | _ => True

structure TokenTraffic.Kept (env : P2pmEnv) (before : List (List MsgPart)) (state : TokenTraffic) : Prop where
  sent : Whole state.actor.node.successorSent ∧
    tokenMessages env.host state.actor.node.successorSent = before ++ state.taken.map (Token.parts env.host)
  up : List.Forall₂ Delivered (tokensUp state.actor.pipe) state.received
  emptySend : state.actor.terminated = false → state.actor.node.sendHasToken = false
  emptyRecv : state.actor.terminated = false → state.actor.node.recvHasToken = false

-- What comes before the pass: it changes neither what has been sent nor what has been received, and fills the slot for the
-- command it has taken.
structure PolledFrame (old new : P2pmdActor) (taken : List Token) : Prop where
  sent : new.node.successorSent = old.node.successorSent
  received : new.node.recvHasToken = old.node.recvHasToken
  up : tokensUp new.pipe = tokensUp old.pipe
  slot : taken = [] ∧ new.node.sendHasToken = old.node.sendHasToken ∨
    ∃ token, taken = [token] ∧ new.terminated = false ∧ new.node.sendHasToken = true ∧ new.node.sendToken = token

theorem take_command_frame (actor : P2pmdActor) (command : PipeCommand) (running : actor.terminated = false) :
    PolledFrame actor (takeCommand actor command) command.tokens := by
  have nothing : ∀ endpoint : Bytes, tokensUp (actor.pipe ++ [.endpoint endpoint]) = tokensUp actor.pipe := by
    intro endpoint
    simp [tokensUp, PipeMessage.asToken]
  cases command with
  | getPredecessorEndpt => exact ⟨rfl, rfl, nothing _, Or.inl ⟨rfl, rfl⟩⟩
  | getSuccessorEndpt => exact ⟨rfl, rfl, nothing _, Or.inl ⟨rfl, rfl⟩⟩
  | sendToken token => exact ⟨rfl, rfl, rfl, Or.inr ⟨token, rfl, running, rfl, rfl⟩⟩
  | terminate => exact ⟨rfl, rfl, rfl, Or.inl ⟨rfl, rfl⟩⟩

theorem polled_frame (actor : P2pmdActor) (turn : ActorTurn) (running : actor.terminated = false) :
    PolledFrame actor (actor.polled turn) (takenIn actor turn) := by
  cases turn with
  | interrupted => exact ⟨rfl, rfl, rfl, Or.inl ⟨rfl, rfl⟩⟩
  | repeats arrivals => exact ⟨rfl, rfl, rfl, Or.inl ⟨rfl, rfl⟩⟩
  | polls arrivals revents command =>
      by_cases closed : actor.node.successorPoller ∈ actor.node.closed ∨ actor.node.predecessorPoller ∈ actor.node.closed
      · simp only [P2pmdActor.polled, takenIn, if_pos closed]
        exact ⟨rfl, rfl, rfl, Or.inl ⟨rfl, rfl⟩⟩
      · simp only [P2pmdActor.polled, takenIn, if_neg closed]
        by_cases readable : revents.pipe = true
        · simp only [if_pos readable]
          have frame := take_command_frame { actor with node := { actor.node.arrive arrivals with revents := revents } } command running
          exact ⟨frame.sent, frame.received, frame.up, frame.slot⟩
        · simp only [if_neg readable]
          exact ⟨rfl, rfl, rfl, Or.inl ⟨rfl, rfl⟩⟩

theorem process_timeo_frame (env : P2pmEnv) (actor next : P2pmdActor) (done : processTimeo env actor = .ok next) :
    ∃ code node, p2pmLoopServer env actor.node = .ok (code, node) ∧ next.terminated = actor.terminated ∧
      next.node.successorSent = node.successorSent ∧ next.node.sendHasToken = node.sendHasToken ∧
      next.node.recvHasToken = false ∧
      tokensUp next.pipe = tokensUp actor.pipe ++ if node.recvHasToken then [node.recvToken] else [] := by
  obtain ⟨⟨code, node⟩, loop, done⟩ := bind_ok _ _ _ done
  refine ⟨code, node, loop, ?_⟩
  dsimp only [zclockMono, passUp] at done
  by_cases full : node.recvHasToken = true
  · simp only [if_pos full] at done ⊢
    split at done
    · cases done
      exact ⟨rfl, rfl, rfl, rfl, by simp [tokensUp, PipeMessage.asToken]⟩
    · cases done
      exact ⟨rfl, rfl, rfl, rfl, by simp [tokensUp, PipeMessage.asToken]⟩
  · have empty : node.recvHasToken = false := by simpa using full
    simp only [if_neg full, List.append_nil] at done ⊢
    split at done
    · cases done
      exact ⟨rfl, rfl, rfl, empty, rfl⟩
    · cases done
      exact ⟨rfl, rfl, rfl, empty, rfl⟩

theorem idle_pass_empty (state : TokenTraffic) (turn : ActorTurn) (has : HasMessage state turn)
    (running : (state.actor.polled turn).terminated = false) (readable : (state.actor.polled turn).node.revents.server = true)
    (nothing : (state.actor.polled turn).node.serverInbox = []) : ∃ arrivals, turn = .repeats arrivals := by
  cases turn with
  | interrupted => cases running
  | repeats arrivals => exact ⟨arrivals, rfl⟩
  | polls arrivals revents command =>
      exfalso
      by_cases closed : state.actor.node.successorPoller ∈ state.actor.node.closed ∨
          state.actor.node.predecessorPoller ∈ state.actor.node.closed
      · rw [P2pmdActor.polled, if_pos closed] at running
        cases running
      · simp only [P2pmdActor.polled, if_neg closed] at readable nothing
        by_cases commanded : revents.pipe = true
        · rw [if_pos commanded] at readable nothing
          cases command with
          | _ => exact has readable nothing
        · rw [if_neg commanded] at readable nothing
          exact has readable nothing

theorem tokens_kept (env : P2pmEnv) (before : List (List MsgPart)) (state next : TokenTraffic) (turn : ActorTurn)
    (kept : state.Kept env before) (has : HasMessage state turn) (taken : state.step env turn = some next) : next.Kept env before := by
  simp only [TokenTraffic.step] at taken
  cases stepped : state.actor.step env turn with
  | none =>
      rw [stepped] at taken
      cases taken
  | some actor =>
      rw [stepped] at taken
      cases taken
      unfold P2pmdActor.step at stepped
      split at stepped
      · cases stepped
      · rename_i allowed
        have running : state.actor.terminated = false := by
          by_contra ended
          exact allowed (Or.inl (by simpa using ended))
        have frame := polled_frame state.actor turn running
        have emptySend := kept.emptySend running
        have emptyRecv := kept.emptyRecv running
        dsimp only at stepped
        by_cases ended : (state.actor.polled turn).terminated = true
        · rw [if_pos ended] at stepped
          cases stepped
          rcases frame.slot with ⟨none_, _⟩ | ⟨token, _, going, _⟩
          · refine ⟨?_, ?_, fun going => ?_, fun going => ?_⟩
            · rw [frame.sent, none_, List.append_nil]
              exact kept.sent
            · rw [frame.up, if_pos ended, List.append_nil]
              exact kept.up
            · rw [ended] at going
              cases going
            · rw [ended] at going
              cases going
          · rw [ended] at going
            cases going
        · rw [if_neg ended] at stepped
          have going : (state.actor.polled turn).terminated = false := by simpa using ended
          cases passed : processTimeo env (state.actor.polled turn) with
          | error stop =>
              rw [passed] at stepped
              cases stepped
          | ok after =>
              rw [passed] at stepped
              cases stepped
              obtain ⟨code, node, loop, same, sent, slot, empty, up⟩ := process_timeo_frame env _ actor passed
              have emptied := frame.received.trans emptyRecv
              rw [if_neg ended]
              rcases loop_server_tokens env _ node code emptied loop with ⟨readable, nothing, idle⟩ | ⟨flushed, sends, received⟩
              · obtain ⟨arrivals, again⟩ := idle_pass_empty state turn has going readable nothing
                have none_ : receivedIn env (state.actor.polled turn).node = [] := by rw [receivedIn, readable, nothing]
                rw [idle] at sent slot up
                subst again
                refine ⟨?_, ?_, fun _ => slot.trans emptySend, fun _ => empty⟩
                · rw [sent, frame.sent]
                  simpa only [takenIn, List.append_nil] using kept.sent
                · rw [up, if_neg (by simp [emptied]), none_, List.append_nil, List.append_nil]
                  exact kept.up
              · refine ⟨?_, ?_, fun _ => slot.trans flushed, fun _ => empty⟩
                · obtain ⟨whole, exact_⟩ := kept.sent
                  rw [frame.sent] at sends
                  obtain ⟨whole, tokens⟩ := sends_tokens env.host _ _ _ whole sends
                  rw [sent]
                  refine ⟨whole, ?_⟩
                  rw [tokens, exact_, List.map_append, List.append_assoc]
                  rcases frame.slot with ⟨none_, same⟩ | ⟨token, one, _, full, filled⟩
                  · rw [none_, same, emptySend]
                    rfl
                  · rw [one, full, filled]
                    rfl
                · rw [up, frame.up]
                  rcases received with ⟨none_, empty⟩ | ⟨message, one, full, delivered⟩
                  · rw [none_, empty, List.append_nil]
                    simpa using kept.up
                  · rw [one, full]
                    exact List.rel_append kept.up (List.Forall₂.cons delivered List.Forall₂.nil)

-- A token handed over is in the slot until the next pass sends it, once and whole, and each P2PM_TOKEN message received goes up
-- the pipe once and whole, as long as server_socket has a message when it is reported readable.
theorem token_slots_lose_nothing (env : P2pmEnv) (node : P2pm) (turns : List ActorTurn) (final : TokenTraffic)
    (whole : Whole node.successorSent) (emptySend : node.sendHasToken = false) (emptyRecv : node.recvHasToken = false)
    (has : Runs.Meets (TokenTraffic.step env) HasMessage (TokenTraffic.start node) turns)
    (ran : Runs.run (TokenTraffic.step env) (TokenTraffic.start node) turns = some final) :
    tokenMessages env.host final.actor.node.successorSent =
        tokenMessages env.host node.successorSent ++ final.taken.map (Token.parts env.host) ∧
      List.Forall₂ Delivered (tokensUp final.actor.pipe) final.received := by
  have start : (TokenTraffic.start node).Kept env (tokenMessages env.host node.successorSent) :=
    ⟨⟨whole, by simp [TokenTraffic.start]⟩, List.Forall₂.nil, fun _ => emptySend, fun _ => emptyRecv⟩
  have kept := Runs.run_guarded_invariant (TokenTraffic.step env) HasMessage (TokenTraffic.Kept env _)
    (fun state turn next => tokens_kept env _ state next turn) (TokenTraffic.start node) final turns start has ran
  exact ⟨kept.sent.2, kept.up⟩

def sampleToken (ttl : Int32) : Token :=
  { id := 4, ttl := ttl, buf1 := [some 65, some 0], buf2 := [some 80, some 0], len1 := 2, len2 := 2 }

def sampleTokenTurn : ActorTurn :=
  .polls { server := ⟨[some 7], true⟩ :: (sampleToken (-1)).parts .big, successor := [], predecessor := [] }
    { server := true, successor := false, predecessor := false, pipe := true } (.sendToken (sampleToken 3))

set_option maxRecDepth 20000 in
theorem token_slots_lose_nothing_sample : ∃ final : TokenTraffic,
    Runs.run (TokenTraffic.step sampleP2pmEnv) (TokenTraffic.start sampleP2pm) [sampleTokenTurn] = some final ∧
      tokenMessages .little final.actor.node.successorSent = [(sampleToken 3).parts .little] ∧
      List.Forall₂ Delivered (tokensUp final.actor.pipe) final.received ∧ final.received.length = 1 := by
  obtain ⟨final, ran, taken, received⟩ : ∃ final : TokenTraffic,
      Runs.run (TokenTraffic.step sampleP2pmEnv) (TokenTraffic.start sampleP2pm) [sampleTokenTurn] = some final ∧
        final.taken = [sampleToken 3] ∧ final.received.length = 1 := ⟨_, rfl, rfl, rfl⟩
  have result := token_slots_lose_nothing sampleP2pmEnv sampleP2pm [sampleTokenTurn] final ⟨[], rfl, by simp⟩ rfl rfl
    (fun _ _ => ⟨fun _ => by simp, trivial⟩) ran
  rw [taken] at result
  exact ⟨final, ran, result.1, result.2, received⟩

end Synergy
