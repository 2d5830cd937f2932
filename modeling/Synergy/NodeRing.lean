import Synergy.Joins
import Synergy.Lib.Simulation
import Synergy.RingMessages

set_option autoImplicit false

namespace Synergy

-- The next message of successor_socket of the node before, or one from elsewhere, each behind the identity that server_socket
-- puts before it.
inductive Incoming where
  | next (identity : List (Option UInt8))
  | other (identity : List (Option UInt8)) (message : List MsgPart)

-- Daemons around a ring, each with its p2pmd. commands: the tokens in the pipe to p2pmd. wire i: the messages of successor_socket
-- of node i that have not come to the next node.
structure NodeRing (n : Nat) where
  daemons : Fin n → Tsd
  commands : Fin n → List GenericToken
  actors : Fin n → P2pmdActor
  wire : Fin n → List (List MsgPart)
  tickets : Nat

-- A client's message at a daemon, a token that p2pmd has passed up, a pass of p2pmd. stray is as in Move.
inductive NodeMove (n : Nat) where
  | hears (i : Fin n) (isLocal : Bool) (input : Input)
  | lifts (i : Fin n) (stray : UInt8)
  | passes (i : Fin n) (incoming : List Incoming) (successor predecessor : List MsgPart) (revents : Revents)

variable {n : Nat} [NeZero n]

-- What comes in, and what is left on the wire. Nothing comes before it is sent.
def comeIn (wire : List (List MsgPart)) : List Incoming → Option (List (MsgPart × List MsgPart) × List (List MsgPart))
  | [] => some ([], wire)
  | .other identity message :: rest => (comeIn wire rest).map fun came => ((⟨identity, true⟩, message) :: came.1, came.2)
  | .next identity :: rest =>
      match wire with
      | [] => none
      | message :: later => (comeIn later rest).map fun came => ((⟨identity, true⟩, message) :: came.1, came.2)

-- The messages that a pass has sent on successor_socket.
def sentSince (old next : P2pm) : List (List MsgPart) :=
  (Multipart.receive MsgPart.more [] (next.successorSent.drop old.successorSent.length)).1

-- The turn of p2pmd with what comes in, and what is left in the pipe to it. server_socket is not reported readable with nothing
-- to receive, nor is the pipe.
def NodeRing.turn (ring : NodeRing n) (i : Fin n) (server successor predecessor : List MsgPart) (revents : Revents) :
    Option (ActorTurn × List GenericToken) :=
  let arrivals : Arrivals := ⟨server, successor, predecessor⟩
  if (ring.actors i).again then some (.repeats arrivals, ring.commands i)
  else if revents.server ∧ (ring.actors i).node.serverInbox ++ server = [] then none
  else if revents.pipe then
    match ring.commands i with
    | [] => none
    | tk :: later => some (.polls arrivals revents (.sendToken tk.handed), later)
  else some (.polls arrivals revents .getSuccessorEndpt, ring.commands i)

-- A daemon hands the tokens it sends to its p2pmd.
def NodeRing.hand (ring : NodeRing n) (i : Fin n) (self : Tsd) (sent : List Out) : NodeRing n :=
  { ring with
    daemons := Function.update ring.daemons i self
    commands := Function.update ring.commands i (ring.commands i ++ tokensIn sent) }

-- The daemon has received a message from its p2pmd.
def NodeRing.lifted (ring : NodeRing n) (i : Fin n) (later : List PipeMessage) : NodeRing n :=
  { ring with actors := Function.update ring.actors i { ring.actors i with pipe := later } }

-- After a pass of node i: what is left in the pipe to it and on the wire to it, and what it is and has sent.
def NodeRing.passed (ring : NodeRing n) (i : Fin n) (commands : List GenericToken) (wire : List (List MsgPart)) (actor : P2pmdActor) :
    NodeRing n :=
  let received := Function.update ring.wire (i - 1) wire
  { ring with
    commands := Function.update ring.commands i commands
    actors := Function.update ring.actors i actor
    wire := Function.update received i (received i ++ sentSince (ring.actors i).node actor.node) }

@[simp] theorem passed_commands (ring : NodeRing n) (i : Fin n) (commands : List GenericToken) (wire : List (List MsgPart))
    (actor : P2pmdActor) : (ring.passed i commands wire actor).commands = Function.update ring.commands i commands := rfl

@[simp] theorem passed_actors (ring : NodeRing n) (i : Fin n) (commands : List GenericToken) (wire : List (List MsgPart))
    (actor : P2pmdActor) : (ring.passed i commands wire actor).actors = Function.update ring.actors i actor := rfl

@[simp] theorem passed_wire (ring : NodeRing n) (i : Fin n) (commands : List GenericToken) (wire : List (List MsgPart))
    (actor : P2pmdActor) : (ring.passed i commands wire actor).wire = Function.update (Function.update ring.wire (i - 1) wire) i
      (Function.update ring.wire (i - 1) wire i ++ sentSince (ring.actors i).node actor.node) := rfl

def NodeRing.step (platform : Fin n → Platform) (env : Fin n → P2pmEnv) (ring : NodeRing n) : NodeMove n → Option (NodeRing n)
  | .hears i isLocal input =>
      match handler (platform i) (ring.daemons i) isLocal ring.tickets input with
      | .error _ => none
      | .ok handled => some { ring.hand i handled.self handled.sent with tickets := ring.tickets + 1 }
  | .lifts i stray =>
      match (ring.actors i).pipe with
      | .token token :: later =>
          match token.raised with
          | none => none
          | some tk =>
              match tokenHandler (platform i) stray (ring.daemons i) tk with
              | .error _ => none
              | .ok (self, sent) => some ((ring.lifted i later).hand i self sent)
      | _ => none
  | .passes i incoming successor predecessor revents =>
      match comeIn (ring.wire (i - 1)) incoming with
      | none => none
      | some (messages, wire) =>
          match ring.turn i (inboxOf messages) successor predecessor revents with
          | none => none
          | some (turn, commands) =>
              match (ring.actors i).step (env i) turn with
              | none => none
              | some actor => some (ring.passed i commands wire actor)

-- The tokens on their way to daemon i, the oldest first: in the pipe from its p2pmd, in the messages that wait at the server of its
-- p2pmd, in those on the wire, and in the pipe to the p2pmd before.
def arrivedTokens (env : P2pmEnv) (actor : P2pmdActor) : List GenericToken :=
  (tokensUp actor.pipe).filterMap Token.raised ++
    (Multipart.receive MsgPart.more [] actor.node.serverInbox).1.flatMap fun message => borne env message.tail

def NodeRing.inTransit (env : Fin n → P2pmEnv) (ring : NodeRing n) (i : Fin n) : List GenericToken :=
  arrivedTokens (env i) (ring.actors i) ++ (ring.wire (i - 1)).flatMap (borne (env i)) ++ ring.commands (i - 1)

-- What a step of the daemons with their p2pmd is in a ring of daemons that hand their tokens to one another.
def NodeMove.shown : NodeMove n → List (Move n)
  | .hears i isLocal input => [.hears i isLocal input]
  | .lifts i stray => [.delivers i stray]
  | .passes .. => []

-- Membership is fixed: every p2pmd runs as a member, and what it sends to its successor goes to the next one. No token is larger than
-- the address space.
structure NodeRing.Stands (env : Fin n → P2pmEnv) (ring : NodeRing n) : Prop where
  runs : ∀ i, (ring.actors i).terminated = false
  member : ∀ i, (ring.actors i).node.Member
  connected : ∀ i, (ring.actors i).node.successorSocket.connected = [(env (i + 1)).endpoint]
  addressable : ∀ i, ∀ tk ∈ ring.commands i, tk.buf1.length < 2 ^ 64 ∧ tk.buf2.length < 2 ^ 64

-- The daemons get no TsAdd and no TsTransmit, whose tokens do not say how long they are. What comes to p2pmd from elsewhere are whole
-- requests.
def NodeRing.Accepts (platform : Fin n → Platform) (env : Fin n → P2pmEnv) (ring : NodeRing n) : NodeMove n → Prop
  | .hears i _ input => ∀ action, commandOf (platform i).host input = .ok (some action) → action ≠ .tsAdd ∧ action ≠ .tsTransmit
  | .lifts _ _ => True
  | .passes i incoming _ _ _ => ∀ identity message, Incoming.other identity message ∈ incoming →
      Multipart.Message MsgPart.more message ∧ WholeRequest (env i) (ring.actors i).node.nodeList.rMax message

-- What waits at a server: its frames announce one another, and it is what may come to a member.
def Arrived (env : P2pmEnv) (rMax : UInt32) (one : MsgPart × List MsgPart) : Prop :=
  one.1.more = true ∧ Multipart.Message MsgPart.more one.2 ∧ RingMessage env rMax one.2

structure NodeRing.Sound (env : Fin n → P2pmEnv) (rMax : Fin n → UInt32) (ring : NodeRing n) : Prop where
  given : ∀ i, ∀ tk ∈ ring.commands i, tk.Sized
  up : ∀ i, ∃ tokens : List GenericToken, (∀ tk ∈ tokens, tk.Sized) ∧
    (ring.actors i).pipe = tokens.map fun tk => PipeMessage.token tk.handed
  inbox : ∀ i, ∃ messages, (ring.actors i).node.serverInbox = inboxOf messages ∧ ∀ one ∈ messages, Arrived (env i) (rMax i) one
  wire : ∀ i, ∀ message ∈ ring.wire i, Multipart.Message MsgPart.more message ∧ RingMessage (env (i + 1)) (rMax (i + 1)) message
  idle : ∀ i, (ring.actors i).node.sendHasToken = false ∧ (ring.actors i).node.recvHasToken = false
  rMax : ∀ i, (ring.actors i).node.nodeList.rMax = rMax i

theorem arrived_messages (env : P2pmEnv) (rMax : UInt32) (messages : List (MsgPart × List MsgPart))
    (each : ∀ one ∈ messages, Arrived env rMax one) :
    (Multipart.receive MsgPart.more [] (inboxOf messages)).1 = messages.map fun one => one.1 :: one.2 := by
  rw [inboxOf, Multipart.receive_messages]
  intro message member
  obtain ⟨one, inside, rfl⟩ := List.mem_map.mp member
  exact Multipart.message_cons MsgPart.more one.1 one.2 (each one inside).1 (each one inside).2.1

theorem raised_tokens (tokens : List GenericToken) (sized : ∀ tk ∈ tokens, tk.Sized) :
    (tokensUp (tokens.map fun tk => PipeMessage.token tk.handed)).filterMap Token.raised = tokens := by
  induction tokens with
  | nil => rfl
  | cons tk later ih =>
      have rest := ih fun other member => sized other (List.mem_cons_of_mem _ member)
      simp only [tokensUp, List.map_cons, List.filterMap_cons, PipeMessage.asToken,
        handed_raised tk (sized tk (List.mem_cons_self ..))] at rest ⊢
      rw [rest]

theorem arrived_tokens (env : P2pmEnv) (rMax : UInt32) (actor : P2pmdActor) (tokens : List GenericToken)
    (messages : List (MsgPart × List MsgPart)) (sized : ∀ tk ∈ tokens, tk.Sized)
    (pipe : actor.pipe = tokens.map fun tk => PipeMessage.token tk.handed) (inbox : actor.node.serverInbox = inboxOf messages)
    (each : ∀ one ∈ messages, Arrived env rMax one) : arrivedTokens env actor = tokens ++ brought env messages := by
  rw [arrivedTokens, pipe, inbox, raised_tokens tokens sized, arrived_messages env rMax messages each, List.flatMap_map]
  rfl

theorem hand_transit (env : Fin n → P2pmEnv) (ring : NodeRing n) (i : Fin n) (self : Tsd) (sent : List Out) :
    (ring.hand i self sent).inTransit env = Function.update (ring.inTransit env) (i + 1) (ring.inTransit env (i + 1) ++ tokensIn sent) := by
  funext j
  by_cases next : j = i + 1
  · rw [next, Function.update_self]
    simp only [NodeRing.inTransit, NodeRing.hand, add_sub_cancel_right, Function.update_self, List.append_assoc]
  · have other : j - 1 ≠ i := fun same => next (sub_eq_iff_eq_add.mp same)
    rw [Function.update_of_ne next]
    simp only [NodeRing.inTransit, NodeRing.hand, Function.update_of_ne other]

theorem pass_on_tokens (inbox : Fin n → List (Passing n)) (i origin : Fin n) (hops : Nat) (sent : List Out)
    (transit : Fin n → List GenericToken)
    (tokens : ∀ j, (inbox j).map Passing.token = transit j) (j : Fin n) :
    (passOn inbox i origin hops sent j).map Passing.token = Function.update transit (i + 1) (transit (i + 1) ++ tokensIn sent) j := by
  unfold passOn
  by_cases next : j = i + 1
  · rw [next, Function.update_self, Function.update_self, List.map_append, tokens, List.map_map]
    congr 1
    exact List.map_id _
  · rw [Function.update_of_ne next, Function.update_of_ne next, tokens]

theorem taken_sends (self next : Tsd) (tk : GenericToken) (sent : List GenericToken) (taken : Taken self tk next sent) :
    ∀ other ∈ sent, other = tk := by
  have relayed : ∀ other ∈ tokensIn (relay tk), other = tk := by
    intro other member
    unfold relay at member
    split at member
    · simpa using member
    · cases member
  cases taken with
  | unknown => exact relayed
  | duplicate => exact fun other member => by cases member
  | activates => exact relayed
  | dropped => exact fun other member => by cases member
  | decomissions =>
      intro other member
      split at member
      · simpa using member
      · cases member
  | matched => exact relayed
  | other => exact fun other member => by cases member

theorem origin_sized (platform : Platform) (self : Tsd) (action : TupleCommand) (tk : GenericToken)
    (origin : Origin platform self action tk)
    (allowed : action ≠ .tsAdd ∧ action ≠ .tsTransmit) (small : tk.buf1.length < 2 ^ 64 ∧ tk.buf2.length < 2 ^ 64) : tk.Sized := by
  have once : -2 ^ 31 ≤ (-1 : Int) ∧ (-1 : Int) < 2 ^ 31 := by decide
  cases origin with
  | activation spaceName => exact ⟨once, by simp [activationToken], by simp [activationToken], small.1, small.2⟩
  | termination spaceName =>
      exact ⟨once, by simp [decomissionToken, activationToken], by simp [decomissionToken, activationToken], small.1, small.2⟩
  | named spaceName name buf1 built => exact ⟨once, rfl, by simp, small.1, small.2⟩
  | anonymous => exact absurd rfl allowed.1
  | replication action spaceName anonId buf1 adds built =>
      rcases adds with adds | adds
      · exact absurd adds allowed.1
      · exact absurd adds allowed.2

-- Before the pass: what has come in stands at the end, and the token taken from the pipe is in the slot.
structure Polled (old new : P2pmdActor) (server : List MsgPart) (taken : List Token) : Prop where
  inbox : new.node.serverInbox = old.node.serverInbox ++ server
  status : new.node.currentStatus = old.node.currentStatus
  rMax : new.node.nodeList.rMax = old.node.nodeList.rMax
  received : new.node.recvHasToken = old.node.recvHasToken
  sent : new.node.successorSent = old.node.successorSent
  pipe : new.pipe = old.pipe
  slot : (taken = [] ∧ new.node.sendHasToken = old.node.sendHasToken) ∨
    ∃ token, taken = [token] ∧ new.node.sendHasToken = true ∧ new.node.sendToken = token

omit [NeZero n] in
theorem turn_polled (ring : NodeRing n) (i : Fin n) (server successor predecessor : List MsgPart) (revents : Revents) (turn : ActorTurn)
    (later : List GenericToken) (is : ring.turn i server successor predecessor revents = some (turn, later))
    (running : ((ring.actors i).polled turn).terminated = false) :
    ∃ given : List GenericToken, ring.commands i = given ++ later ∧
      Polled (ring.actors i) ((ring.actors i).polled turn) server (given.map GenericToken.handed) ∧
      (((ring.actors i).polled turn).node.revents.server = true → ((ring.actors i).polled turn).node.serverInbox = [] → given = []) := by
  unfold NodeRing.turn at is
  dsimp only at is
  split at is
  · cases is
    exact ⟨[], rfl, ⟨rfl, rfl, rfl, rfl, rfl, rfl, Or.inl ⟨rfl, rfl⟩⟩, fun _ _ => rfl⟩
  · split at is
    · cases is
    · rename_i has
      split at is
      · rename_i readable
        split at is
        · cases is
        · rename_i tk rest commands
          cases is
          by_cases closed : (ring.actors i).node.successorPoller ∈ (ring.actors i).node.closed ∨
              (ring.actors i).node.predecessorPoller ∈ (ring.actors i).node.closed
          · rw [P2pmdActor.polled, if_pos closed] at running
            cases running
          · rw [P2pmdActor.polled, if_neg closed, if_pos readable]
            exact ⟨[tk], commands, ⟨rfl, rfl, rfl, rfl, rfl, rfl, Or.inr ⟨_, rfl, rfl, rfl⟩⟩,
              fun server empty => absurd ⟨server, empty⟩ has⟩
      · rename_i idle
        cases is
        by_cases closed : (ring.actors i).node.successorPoller ∈ (ring.actors i).node.closed ∨
            (ring.actors i).node.predecessorPoller ∈ (ring.actors i).node.closed
        · rw [P2pmdActor.polled, if_pos closed] at running
          cases running
        · rw [P2pmdActor.polled, if_neg closed, if_neg idle]
          exact ⟨[], rfl, ⟨rfl, rfl, rfl, rfl, rfl, rfl, Or.inl ⟨rfl, rfl⟩⟩, fun _ _ => rfl⟩

theorem timeo_passed (env : P2pmEnv) (actor next : P2pmdActor) (done : processTimeo env actor = .ok next) :
    ∃ code node, p2pmLoopServer env actor.node = .ok (code, node) ∧
      next.pipe = actor.pipe ++ (if node.recvHasToken then [.token node.recvToken] else []) ∧ next.node.recvHasToken = false ∧
      next.node.serverInbox = node.serverInbox ∧ next.node.successorSent = node.successorSent ∧
      next.node.sendHasToken = node.sendHasToken ∧ next.node.nodeList.rMax = node.nodeList.rMax := by
  obtain ⟨⟨code, node⟩, loop, done⟩ := bind_ok _ _ _ done
  refine ⟨code, node, loop, ?_⟩
  dsimp only [zclockMono, passUp] at done
  by_cases full : node.recvHasToken = true
  · simp only [if_pos full] at done ⊢
    split at done
    · cases done
      exact ⟨rfl, rfl, rfl, rfl, rfl, rfl⟩
    · cases done
      exact ⟨rfl, rfl, rfl, rfl, rfl, rfl⟩
  · have empty : node.recvHasToken = false := by simpa using full
    simp only [if_neg full, List.append_nil] at done ⊢
    split at done
    · cases done
      exact ⟨rfl, empty, rfl, rfl, rfl, rfl⟩
    · cases done
      exact ⟨rfl, empty, rfl, rfl, rfl, rfl⟩

-- A pass of p2pmd: it takes messages from the front, passes up the tokens they bring, and sends the tokens it has taken from the
-- pipe behind messages of maintenance.
structure Passes (env : P2pmEnv) (messages front left : List (MsgPart × List MsgPart)) (given : List GenericToken)
    (old next : P2pmdActor) : Prop where
  split : messages = front ++ left
  inbox : next.node.serverInbox = inboxOf left
  up : next.pipe = old.pipe ++ (brought env front).map fun tk => PipeMessage.token tk.handed
  sized : ∀ tk ∈ brought env front, tk.Sized
  sends : ∃ between : List (List MsgPart), (∀ message ∈ between, Maintenance env message) ∧
    next.node.successorSent = old.node.successorSent ++
      (between ++ given.map fun tk => tk.handed.parts env.host).flatten
  idle : next.node.sendHasToken = false ∧ next.node.recvHasToken = false
  rMax : next.node.nodeList.rMax = old.node.nodeList.rMax

theorem actor_passes (env : P2pmEnv) (old next : P2pmdActor) (turn : ActorTurn) (server : List MsgPart) (given : List GenericToken)
    (messages : List (MsgPart × List MsgPart)) (taken : old.step env turn = some next) (running : next.terminated = false)
    (polled : (old.polled turn).terminated = false → Polled old (old.polled turn) server (given.map GenericToken.handed) ∧
      ((old.polled turn).node.revents.server = true → (old.polled turn).node.serverInbox = [] → given = []))
    (member : old.node.Member) (waiting : old.node.serverInbox ++ server = inboxOf messages)
    (each : ∀ one ∈ messages, RingMessage env old.node.nodeList.rMax one.2)
    (idle : old.node.sendHasToken = false ∧ old.node.recvHasToken = false) :
    ∃ front left, Passes env messages front left given old next := by
  obtain ⟨-, passed⟩ := actor_step_ok env old next turn taken
  rcases passed with ⟨ended, same⟩ | ⟨going, passed⟩
  · rw [same, ended] at running
    cases running
  · obtain ⟨frame, lazy⟩ := polled going
    obtain ⟨code, node, loop, pipe, empty, inbox, sent, slot, rMax⟩ := timeo_passed env _ next passed
    have status : (old.polled turn).node.Member := by
      unfold P2pm.Member
      rw [frame.status]
      exact member
    have unsent : (old.polled turn).node.revents.server = true → messages = [] → (old.polled turn).node.sendHasToken = false := by
      intro readable none_
      have nothing := lazy readable (by rw [frame.inbox, waiting, none_]; rfl)
      rcases frame.slot with ⟨_, same⟩ | ⟨token, one, _⟩
      · rw [same, idle.1]
      · rw [nothing] at one
        cases one
    obtain ⟨front, left, pass⟩ := loop_server_pass env _ node code messages status (frame.inbox.trans waiting)
      (frame.rMax ▸ each) unsent (frame.received.trans idle.2) loop
    refine ⟨front, left, pass.split, inbox.trans pass.inbox, ?_, ?_, ?_, ⟨slot.trans pass.idle, empty⟩, ?_⟩
    · rw [pipe, frame.pipe]
      congr 1
      rcases pass.received with ⟨none_, no⟩ | ⟨tk, _, one, full, token⟩
      · rw [none_, if_neg (by simp [no])]
        rfl
      · rw [one, if_pos full, token]
        rfl
    · intro tk member
      rcases pass.received with ⟨none_, _⟩ | ⟨tk', sized, one, _⟩
      · rw [none_] at member
        cases member
      · rw [one, List.mem_singleton] at member
        rw [member]
        exact sized
    · obtain ⟨middle, ⟨between, same, each⟩, out⟩ := pass.sends
      refine ⟨between, each, ?_⟩
      rw [sent, out, same, frame.sent, List.flatten_append, List.append_assoc]
      congr 2
      rcases frame.slot with ⟨none_, same⟩ | ⟨token, one, full, filled⟩
      · rw [List.map_eq_nil_iff.mp none_, same, idle.1]
        rfl
      · rw [full, if_pos rfl, filled]
        have parts := congrArg (fun tokens => (tokens.map fun token : Token => token.parts env.host).flatten) one
        simpa [Function.comp_def] using parts.symm
    · rw [rMax, pass.rMax, frame.rMax]

-- What has come in is what was on the wire, and whole requests from elsewhere, which bring no token.
theorem come_in (env : P2pmEnv) (rMax : UInt32) (incoming : List Incoming) (wire left : List (List MsgPart))
    (messages : List (MsgPart × List MsgPart)) (came : comeIn wire incoming = some (messages, left))
    (others : ∀ identity message, Incoming.other identity message ∈ incoming →
      Multipart.Message MsgPart.more message ∧ WholeRequest env rMax message)
    (sound : ∀ message ∈ wire, Multipart.Message MsgPart.more message ∧ RingMessage env rMax message) :
    (∀ one ∈ messages, Arrived env rMax one) ∧ (∀ message ∈ left, message ∈ wire) ∧
      brought env messages ++ left.flatMap (borne env) = wire.flatMap (borne env) := by
  induction incoming generalizing wire messages left with
  | nil =>
      cases came
      exact ⟨by simp, fun _ member => member, rfl⟩
  | cons first rest ih =>
      have later : ∀ identity message, Incoming.other identity message ∈ rest →
          Multipart.Message MsgPart.more message ∧ WholeRequest env rMax message :=
        fun identity message member => others identity message (List.mem_cons_of_mem _ member)
      cases first with
      | other identity message =>
          obtain ⟨⟨ms, l⟩, read, same⟩ := Option.map_eq_some_iff.mp came
          cases same
          obtain ⟨arrived, inside, tokens⟩ := ih wire l ms read later sound
          obtain ⟨whole, request⟩ := others identity message (List.mem_cons_self ..)
          refine ⟨List.forall_mem_cons.mpr ⟨⟨rfl, whole, Or.inl request⟩, arrived⟩, inside, ?_⟩
          rw [brought, List.flatMap_cons, borne_request env rMax message request, List.nil_append]
          exact tokens
      | next identity =>
          cases wire with
          | nil => cases came
          | cons message others =>
              obtain ⟨⟨ms, l⟩, read, same⟩ := Option.map_eq_some_iff.mp came
              cases same
              obtain ⟨arrived, inside, tokens⟩ := ih others l ms read later fun other member => sound other (List.mem_cons_of_mem _ member)
              obtain ⟨whole, is⟩ := sound message (List.mem_cons_self ..)
              refine ⟨List.forall_mem_cons.mpr ⟨⟨rfl, whole, is⟩, arrived⟩,
                fun other member => List.mem_cons_of_mem _ (inside other member), ?_⟩
              rw [brought, List.flatMap_cons, List.flatMap_cons, List.append_assoc]
              exact congrArg (borne env message ++ ·) tokens

theorem sent_since (env : P2pmEnv) (old next : P2pm) (between : List (List MsgPart)) (given : List GenericToken)
    (maintenance : ∀ message ∈ between, Maintenance env message)
    (sent : next.successorSent = old.successorSent ++ (between ++ given.map fun tk => tk.handed.parts env.host).flatten) :
    sentSince old next = between ++ given.map fun tk => tk.handed.parts env.host := by
  rw [sentSince, sent, List.drop_left, Multipart.receive_messages]
  intro message member
  rcases List.mem_append.mp member with early | late
  · exact maintenance_message env message (maintenance message early)
  · obtain ⟨tk, _, rfl⟩ := List.mem_map.mp late
    exact token_message env.host tk.handed

theorem sent_fine (sender receiver : P2pmEnv) (rMax : UInt32) (between : List (List MsgPart)) (given : List GenericToken)
    (maintenance : ∀ message ∈ between, Maintenance sender message) (sized : ∀ tk ∈ given, tk.Sized) :
    (∀ message ∈ between ++ given.map fun tk => tk.handed.parts sender.host,
        Multipart.Message MsgPart.more message ∧ RingMessage receiver rMax message) ∧
      (between ++ given.map fun tk => tk.handed.parts sender.host).flatMap (borne receiver) = given := by
  constructor
  · intro message member
    rcases List.mem_append.mp member with early | late
    · have is := maintenance message early
      exact ⟨maintenance_message sender message is, Or.inl (maintenance_request sender receiver rMax message is)⟩
    · obtain ⟨tk, inside, rfl⟩ := List.mem_map.mp late
      exact ⟨token_message sender.host tk.handed, Or.inr ⟨sender.host, tk, sized tk inside, rfl⟩⟩
  · have silent : between.flatMap (borne receiver) = [] := List.flatMap_eq_nil_iff.mpr fun message member =>
      borne_request receiver rMax message (maintenance_request sender receiver rMax message (maintenance message member))
    have tokens : (given.map fun tk => tk.handed.parts sender.host).flatMap (borne receiver) = given := by
      induction given with
      | nil => rfl
      | cons tk later ih =>
          rw [List.map_cons, List.flatMap_cons, borne_token sender.host receiver tk (sized tk (List.mem_cons_self ..)),
            ih fun other member => sized other (List.mem_cons_of_mem _ member)]
          rfl
    rw [List.flatMap_append, silent, tokens, List.nil_append]

-- A pass at node i: up, the tokens in the pipe from it; waiting, what stood at its server; messages, what has come in; front, what it
-- has taken of both; given, the tokens it has taken from the pipe to it.
structure PassAt (env : Fin n → P2pmEnv) (rMax : Fin n → UInt32) (ring : NodeRing n) (i : Fin n) (commands : List GenericToken)
    (wire : List (List MsgPart)) (actor : P2pmdActor) where
  up : List GenericToken
  waiting : List (MsgPart × List MsgPart)
  messages : List (MsgPart × List MsgPart)
  front : List (MsgPart × List MsgPart)
  left : List (MsgPart × List MsgPart)
  given : List GenericToken
  handed : ring.commands i = given ++ commands
  upSized : ∀ tk ∈ up, tk.Sized
  pipe : (ring.actors i).pipe = up.map fun tk => PipeMessage.token tk.handed
  inbox : (ring.actors i).node.serverInbox = inboxOf waiting
  each : ∀ one ∈ waiting ++ messages, Arrived (env i) (rMax i) one
  inside : ∀ message ∈ wire, message ∈ ring.wire (i - 1)
  tokens : brought (env i) messages ++ wire.flatMap (borne (env i)) = (ring.wire (i - 1)).flatMap (borne (env i))
  passes : Passes (env i) (waiting ++ messages) front left given (ring.actors i) actor

namespace PassAt

variable {env : Fin n → P2pmEnv} {rMax : Fin n → UInt32} {ring : NodeRing n} {i : Fin n} {commands : List GenericToken}
  {wire : List (List MsgPart)} {actor : P2pmdActor}

theorem up_now (pass : PassAt env rMax ring i commands wire actor) :
    actor.pipe = (pass.up ++ brought (env i) pass.front).map fun tk => PipeMessage.token tk.handed := by
  rw [pass.passes.up, pass.pipe, List.map_append]

theorem up_sized (pass : PassAt env rMax ring i commands wire actor) : ∀ tk ∈ pass.up ++ brought (env i) pass.front, tk.Sized := by
  intro tk member
  rcases List.mem_append.mp member with early | late
  · exact pass.upSized tk early
  · exact pass.passes.sized tk late

theorem left_arrived (pass : PassAt env rMax ring i commands wire actor) : ∀ one ∈ pass.left, Arrived (env i) (rMax i) one :=
  fun one member => pass.each one (by rw [pass.passes.split]; exact List.mem_append_right _ member)

theorem sends_given (pass : PassAt env rMax ring i commands wire actor) (sound : ring.Sound env rMax) :
    (∀ message ∈ sentSince (ring.actors i).node actor.node,
        Multipart.Message MsgPart.more message ∧ RingMessage (env (i + 1)) (rMax (i + 1)) message) ∧
      (sentSince (ring.actors i).node actor.node).flatMap (borne (env (i + 1))) = pass.given := by
  obtain ⟨between, maintenance, sent⟩ := pass.passes.sends
  rw [sent_since (env i) _ actor.node between pass.given maintenance sent]
  exact sent_fine (env i) (env (i + 1)) (rMax (i + 1)) between pass.given maintenance fun tk member =>
    sound.given i tk (by rw [pass.handed]; exact List.mem_append_left _ member)

theorem wire_sound (pass : PassAt env rMax ring i commands wire actor) (sound : ring.Sound env rMax) (j : Fin n) :
    ∀ message ∈ (ring.passed i commands wire actor).wire j,
      Multipart.Message MsgPart.more message ∧ RingMessage (env (j + 1)) (rMax (j + 1)) message := by
  have received : ∀ k, ∀ message ∈ Function.update ring.wire (i - 1) wire k,
      Multipart.Message MsgPart.more message ∧ RingMessage (env (k + 1)) (rMax (k + 1)) message := by
    intro k message member
    by_cases before : k = i - 1
    · rw [before, Function.update_self] at member
      rw [before]
      exact sound.wire (i - 1) message (pass.inside message member)
    · rw [Function.update_of_ne before] at member
      exact sound.wire k message member
  intro message member
  by_cases same : j = i
  · rw [same] at member ⊢
    rw [passed_wire, Function.update_self] at member
    rcases List.mem_append.mp member with early | late
    · exact received i message early
    · exact (pass.sends_given sound).1 message late
  · rw [passed_wire, Function.update_of_ne same] at member
    exact received j message member

theorem keeps_sound (pass : PassAt env rMax ring i commands wire actor) (sound : ring.Sound env rMax) :
    (ring.passed i commands wire actor).Sound env rMax := by
  have actors : ∀ j, j = i → (ring.passed i commands wire actor).actors j = actor := fun j same => by
    rw [same, passed_actors, Function.update_self]
  have others : ∀ j, j ≠ i → (ring.passed i commands wire actor).actors j = ring.actors j := fun j other => by
    rw [passed_actors, Function.update_of_ne other]
  refine ⟨?_, ?_, ?_, pass.wire_sound sound, ?_, ?_⟩
  all_goals intro j
  all_goals by_cases same : j = i
  · intro tk member
    rw [same, passed_commands, Function.update_self] at member
    exact sound.given i tk (by rw [pass.handed]; exact List.mem_append_right _ member)
  · intro tk member
    rw [passed_commands, Function.update_of_ne same] at member
    exact sound.given j tk member
  · rw [actors j same]
    exact ⟨_, pass.up_sized, pass.up_now⟩
  · rw [others j same]
    exact sound.up j
  · rw [actors j same, same]
    exact ⟨pass.left, pass.passes.inbox, pass.left_arrived⟩
  · rw [others j same]
    exact sound.inbox j
  · rw [actors j same]
    exact pass.passes.idle
  · rw [others j same]
    exact sound.idle j
  · rw [actors j same, pass.passes.rMax, same]
    exact sound.rMax i
  · rw [others j same]
    exact sound.rMax j

theorem comes_in_order (pass : PassAt env rMax ring i commands wire actor) (j : Fin n) :
    arrivedTokens (env j) (Function.update ring.actors i actor j) ++
        (Function.update ring.wire (i - 1) wire (j - 1)).flatMap (borne (env j)) =
      arrivedTokens (env j) (ring.actors j) ++ (ring.wire (j - 1)).flatMap (borne (env j)) := by
  by_cases same : j = i
  · have brings : brought (env i) pass.front ++ brought (env i) pass.left =
        brought (env i) pass.waiting ++ brought (env i) pass.messages := by
      rw [brought, brought, ← List.flatMap_append, ← pass.passes.split, List.flatMap_append]
      rfl
    rw [same, Function.update_self, Function.update_self,
      arrived_tokens (env i) (rMax i) actor _ pass.left pass.up_sized pass.up_now pass.passes.inbox pass.left_arrived,
      arrived_tokens (env i) (rMax i) _ pass.up pass.waiting pass.upSized pass.pipe pass.inbox
        (fun one member => pass.each one (List.mem_append_left _ member)), ← pass.tokens]
    simp only [List.append_assoc]
    rw [← List.append_assoc (brought (env i) pass.front), brings, List.append_assoc]
  · have before : j - 1 ≠ i - 1 := fun equal => same (sub_left_injective equal)
    rw [Function.update_of_ne same, Function.update_of_ne before]

theorem keeps_transit (pass : PassAt env rMax ring i commands wire actor) (sound : ring.Sound env rMax) :
    (ring.passed i commands wire actor).inTransit env = ring.inTransit env := by
  funext j
  have comes := pass.comes_in_order j
  by_cases same : j = i + 1
  · have carries := (pass.sends_given sound).2
    rw [same, add_sub_cancel_right] at comes
    simp only [same, NodeRing.inTransit, passed_commands, passed_actors, passed_wire, add_sub_cancel_right, Function.update_self,
      List.flatMap_append, carries,
      pass.handed]
    rw [← List.append_assoc (arrivedTokens _ _), comes]
    simp only [List.append_assoc]
  · have other : j - 1 ≠ i := fun equal => same (sub_eq_iff_eq_add.mp equal)
    simp only [NodeRing.inTransit, passed_commands, passed_actors, passed_wire, Function.update_of_ne other]
    rw [comes]

end PassAt

theorem pass_made (platform : Fin n → Platform) (env : Fin n → P2pmEnv) (rMax : Fin n → UInt32) (ring next : NodeRing n) (i : Fin n)
    (incoming : List Incoming) (successor predecessor : List MsgPart) (revents : Revents) (sound : ring.Sound env rMax)
    (stands : ring.Stands env) (after : next.Stands env)
    (accepts : ring.Accepts platform env (.passes i incoming successor predecessor revents))
    (taken : ring.step platform env (.passes i incoming successor predecessor revents) = some next) :
    ∃ commands wire actor, next = ring.passed i commands wire actor ∧ Nonempty (PassAt env rMax ring i commands wire actor) := by
  simp only [NodeRing.step] at taken
  cases came : comeIn (ring.wire (i - 1)) incoming with
  | none =>
      rw [came] at taken
      cases taken
  | some entered =>
      obtain ⟨messages, wire⟩ := entered
      rw [came] at taken
      dsimp only at taken
      cases turned : ring.turn i (inboxOf messages) successor predecessor revents with
      | none =>
          rw [turned] at taken
          cases taken
      | some turning =>
          obtain ⟨turn, commands⟩ := turning
          rw [turned] at taken
          dsimp only at taken
          cases stepped : (ring.actors i).step (env i) turn with
          | none =>
              rw [stepped] at taken
              cases taken
          | some actor =>
              rw [stepped] at taken
              cases taken
              have running : actor.terminated = false := by
                have runs := after.runs i
                rwa [passed_actors, Function.update_self] at runs
              have going : ((ring.actors i).polled turn).terminated = false := by
                obtain ⟨-, ⟨ended, same⟩ | ⟨going, -⟩⟩ := actor_step_ok (env i) _ _ turn stepped
                · rw [same, ended] at running
                  cases running
                · exact going
              have wired := sound.wire (i - 1)
              rw [sub_add_cancel] at wired
              obtain ⟨arrived, inside, tokens⟩ := come_in (env i) (rMax i) incoming _ wire messages came
                (by rw [← sound.rMax i]; exact accepts) wired
              obtain ⟨waiting, inbox, waits⟩ := sound.inbox i
              obtain ⟨up, upSized, pipe⟩ := sound.up i
              obtain ⟨given, handed, polled⟩ := turn_polled ring i _ _ _ _ turn commands turned going
              have each : ∀ one ∈ waiting ++ messages, Arrived (env i) (rMax i) one := by
                intro one member
                rcases List.mem_append.mp member with early | late
                · exact waits one early
                · exact arrived one late
              obtain ⟨front, left, passes⟩ := actor_passes (env i) _ actor turn (inboxOf messages) given (waiting ++ messages) stepped
                running (fun _ => polled) (stands.member i) (by rw [inbox, inbox_append])
                (fun one member => by rw [sound.rMax i]; exact (each one member).2.2) (sound.idle i)
              exact ⟨commands, wire, actor, rfl,
                ⟨⟨up, waiting, messages, front, left, given, handed, upSized, pipe, inbox, each, inside, tokens, passes⟩⟩⟩

theorem hand_sound (env : Fin n → P2pmEnv) (rMax : Fin n → UInt32) (ring : NodeRing n) (i : Fin n) (self : Tsd) (sent : List Out)
    (sound : ring.Sound env rMax) (sized : ∀ tk ∈ tokensIn sent, tk.Sized) : (ring.hand i self sent).Sound env rMax := by
  refine ⟨fun j tk member => ?_, sound.up, sound.inbox, sound.wire, sound.idle, sound.rMax⟩
  unfold NodeRing.hand at member
  by_cases same : j = i
  · rw [same] at member
    simp only [Function.update_self] at member
    rcases List.mem_append.mp member with early | late
    · exact sound.given i tk early
    · exact sized tk late
  · simp only [Function.update_of_ne same] at member
    exact sound.given j tk member

theorem lift_transit (env : Fin n → P2pmEnv) (rMax : Fin n → UInt32) (ring : NodeRing n) (i : Fin n) (token : Token)
    (later : List PipeMessage) (sound : ring.Sound env rMax) (pipe : (ring.actors i).pipe = .token token :: later) :
    ∃ tk, tk.Sized ∧ token.raised = some tk ∧ ring.inTransit env i = tk :: (ring.lifted i later).inTransit env i ∧
      (∀ j, j ≠ i → (ring.lifted i later).inTransit env j = ring.inTransit env j) ∧ (ring.lifted i later).Sound env rMax := by
  obtain ⟨up, sized, same⟩ := sound.up i
  rw [pipe] at same
  cases up with
  | nil => cases same
  | cons tk rest =>
      obtain ⟨head, tail⟩ := List.cons.inj same
      cases head
      have first := sized tk (List.mem_cons_self ..)
      have others : ∀ other ∈ rest, other.Sized := fun other member => sized other (List.mem_cons_of_mem _ member)
      have raised := handed_raised tk first
      refine ⟨tk, first, raised, ?_, fun j other => ?_, sound.given, fun j => ?_, fun j => ?_, sound.wire, fun j => ?_, fun j => ?_⟩
      · simp only [NodeRing.inTransit, NodeRing.lifted, Function.update_self, arrivedTokens, pipe, tokensUp, List.filterMap_cons,
          PipeMessage.asToken, raised, List.cons_append]
      · simp only [NodeRing.inTransit, NodeRing.lifted, Function.update_of_ne other]
      all_goals unfold NodeRing.lifted
      all_goals by_cases is : j = i
      all_goals try simp only [is, Function.update_self]
      all_goals try simp only [Function.update_of_ne is]
      · exact ⟨rest, others, tail⟩
      · exact sound.up j
      · exact sound.inbox i
      · exact sound.inbox j
      · exact sound.idle i
      · exact sound.idle j
      · exact sound.rMax i
      · exact sound.rMax j

-- The ring of daemons that a ring of daemons with their p2pmd realises.
structure Realises (env : Fin n → P2pmEnv) (rMax : Fin n → UInt32) (ring : NodeRing n) (image : TokenRing n) : Prop where
  daemons : image.daemons = ring.daemons
  tickets : image.tickets = ring.tickets
  tokens : ∀ i, (image.inbox i).map Passing.token = ring.inTransit env i
  sound : ring.Sound env rMax

theorem hears_simulated (platform : Fin n → Platform) (env : Fin n → P2pmEnv) (rMax : Fin n → UInt32) (ring next : NodeRing n)
    (image : TokenRing n) (i : Fin n) (isLocal : Bool) (input : Input) (realises : Realises env rMax ring image)
    (after : next.Stands env) (accepts : ring.Accepts platform env (.hears i isLocal input))
    (taken : ring.step platform env (.hears i isLocal input) = some next) :
    ∃ later, image.step platform (.hears i isLocal input) = some later ∧ Realises env rMax next later := by
  simp only [NodeRing.step] at taken
  simp only [TokenRing.step, realises.daemons, realises.tickets]
  cases done : handler (platform i) (ring.daemons i) isLocal ring.tickets input with
  | error stop =>
      rw [done] at taken
      cases taken
  | ok handled =>
      rw [done] at taken
      cases taken
      have sized : ∀ tk ∈ tokensIn handled.sent, tk.Sized := by
        intro tk member
        obtain ⟨action, command, origin⟩ := handler_origin (platform i) _ isLocal _ input handled done tk member
        have inside : tk ∈ (ring.hand i handled.self handled.sent).commands i := by
          simp only [NodeRing.hand, Function.update_self]
          exact List.mem_append_right _ member
        exact origin_sized (platform i) _ action tk origin (accepts action command) (after.addressable i tk inside)
      refine ⟨_, rfl, ⟨rfl, rfl, fun j => ?_, ?_⟩⟩
      · exact (pass_on_tokens _ i i 1 handled.sent _ realises.tokens j).trans
          (congrFun (hand_transit env ring i handled.self handled.sent) j).symm
      · have kept := hand_sound env rMax ring i handled.self handled.sent realises.sound sized
        exact ⟨kept.given, kept.up, kept.inbox, kept.wire, kept.idle, kept.rMax⟩

theorem lifts_simulated (platform : Fin n → Platform) (env : Fin n → P2pmEnv) (rMax : Fin n → UInt32) (ring next : NodeRing n)
    (image : TokenRing n) (i : Fin n) (stray : UInt8) (realises : Realises env rMax ring image)
    (taken : ring.step platform env (.lifts i stray) = some next) :
    ∃ later, image.step platform (.delivers i stray) = some later ∧ Realises env rMax next later := by
  simp only [NodeRing.step] at taken
  split at taken
  · rename_i token later pipe
    obtain ⟨tk, sized, raised, first, others, sound⟩ := lift_transit env rMax ring i token later realises.sound pipe
    rw [raised] at taken
    dsimp only at taken
    have tokens := realises.tokens i
    rw [first] at tokens
    cases inbox : image.inbox i with
    | nil =>
        rw [inbox] at tokens
        cases tokens
    | cons passing rest =>
        rw [inbox] at tokens
        obtain ⟨same, left⟩ := List.cons.inj tokens
        simp only [TokenRing.step, inbox, realises.daemons, same]
        cases done : tokenHandler (platform i) stray (ring.daemons i) tk with
        | error stop =>
            rw [done] at taken
            cases taken
        | ok result =>
            obtain ⟨self, sent⟩ := result
            rw [done] at taken
            cases taken
            have transit : ∀ j, (Function.update image.inbox i rest j).map Passing.token = (ring.lifted i later).inTransit env j := by
              intro j
              by_cases is : j = i
              · rw [is, Function.update_self]
                exact left
              · rw [Function.update_of_ne is, others j is]
                exact realises.tokens j
            refine ⟨_, rfl, ⟨rfl, realises.tickets, fun j => ?_, ?_⟩⟩
            · exact (pass_on_tokens _ i passing.origin (passing.hops + 1) sent _ transit j).trans
                (congrFun (hand_transit env (ring.lifted i later) i self sent) j).symm
            · refine hand_sound env rMax _ i self sent sound fun other member => ?_
              rw [taken_sends _ self tk _ (token_handler_taken (platform i) stray _ self tk sent done) other member]
              exact sized
  · cases taken

theorem nodes_simulate (platform : Fin n → Platform) (env : Fin n → P2pmEnv) (rMax : Fin n → UInt32) :
    Runs.Simulates (NodeRing.step platform env) (TokenRing.step platform) NodeMove.shown (NodeRing.Stands env)
      (NodeRing.Accepts platform env) (Realises env rMax) := by
  intro ring move next image realises stands after accepts taken
  cases move with
  | hears i isLocal input =>
      obtain ⟨later, stepped, realised⟩ := hears_simulated platform env rMax ring next image i isLocal input realises after accepts taken
      exact ⟨later, by simp only [NodeMove.shown, Runs.run, stepped], realised⟩
  | lifts i stray =>
      obtain ⟨later, stepped, realised⟩ := lifts_simulated platform env rMax ring next image i stray realises taken
      exact ⟨later, by simp only [NodeMove.shown, Runs.run, stepped], realised⟩
  | passes i incoming successor predecessor revents =>
      obtain ⟨commands, wire, actor, rfl, ⟨pass⟩⟩ :=
        pass_made platform env rMax ring next i incoming successor predecessor revents realises.sound stands after accepts taken
      refine ⟨image, rfl, realises.daemons, realises.tickets, fun j => ?_, pass.keeps_sound realises.sound⟩
      rw [pass.keeps_transit realises.sound]
      exact realises.tokens j

-- A ring before its first pass: nothing is on its way, and no p2pmd has a token.
structure NodeRing.Fresh (ring : NodeRing n) : Prop where
  commands : ∀ i, ring.commands i = []
  pipes : ∀ i, (ring.actors i).pipe = []
  inboxes : ∀ i, (ring.actors i).node.serverInbox = []
  wires : ∀ i, ring.wire i = []
  idle : ∀ i, (ring.actors i).node.sendHasToken = false ∧ (ring.actors i).node.recvHasToken = false

theorem realised_run (platform : Fin n → Platform) (env : Fin n → P2pmEnv) (ring last : NodeRing n) (moves : List (NodeMove n))
    (fresh : ring.Fresh) (stands : Runs.Throughout (NodeRing.step platform env) (NodeRing.Stands env) ring moves)
    (accepts : Runs.Meets (NodeRing.step platform env) (NodeRing.Accepts platform env) ring moves)
    (ran : Runs.run (NodeRing.step platform env) ring moves = some last) :
    ∃ image, Runs.run (TokenRing.step platform) ⟨ring.daemons, fun _ => [], ring.tickets, []⟩ (moves.flatMap NodeMove.shown) = some image ∧
      Realises env (fun i => (ring.actors i).node.nodeList.rMax) last image := by
  have start : Realises env (fun i => (ring.actors i).node.nodeList.rMax) ring ⟨ring.daemons, fun _ => [], ring.tickets, []⟩ := by
    refine ⟨rfl, rfl, fun i => ?_, fun i tk member => ?_, fun i => ⟨[], by simp, fresh.pipes i⟩, fun i => ⟨[], fresh.inboxes i, by simp⟩,
      fun i message member => ?_, fresh.idle, fun _ => rfl⟩
    · simp [NodeRing.inTransit, arrivedTokens, fresh.pipes, fresh.inboxes, fresh.wires, fresh.commands, tokensUp, Multipart.receive]
    · rw [fresh.commands] at member
      cases member
    · rw [fresh.wires] at member
      cases member
  exact Runs.run_simulated _ _ NodeMove.shown _ _ _
    (nodes_simulate platform env fun i => (ring.actors i).node.nodeList.rMax) ring last _ moves start stands accepts ran

-- While membership is fixed, daemons whose tokens go through their p2pmd are daemons that hand their tokens to one another: each run of the
-- one is a run of the other with the same requests and deliveries, the same daemons, and the same tokens on their way in the same order.
theorem nodes_realise_token_ring (platform : Fin n → Platform) (env : Fin n → P2pmEnv) (ring last : NodeRing n) (moves : List (NodeMove n))
    (fresh : ring.Fresh) (stands : Runs.Throughout (NodeRing.step platform env) (NodeRing.Stands env) ring moves)
    (accepts : Runs.Meets (NodeRing.step platform env) (NodeRing.Accepts platform env) ring moves)
    (ran : Runs.run (NodeRing.step platform env) ring moves = some last) :
    ∃ image, Runs.run (TokenRing.step platform) ⟨ring.daemons, fun _ => [], ring.tickets, []⟩ (moves.flatMap NodeMove.shown) = some image ∧
      image.daemons = last.daemons ∧ image.tickets = last.tickets ∧
      ∀ i, (image.inbox i).map Passing.token = last.inTransit env i := by
  obtain ⟨image, reached, realised⟩ := realised_run platform env ring last moves fresh stands accepts ran
  exact ⟨image, reached, realised.daemons, realised.tickets, realised.tokens⟩

instance (self : P2pm) : Decidable self.Member :=
  inferInstanceAs (Decidable (self.currentStatus = .member ∨ self.currentStatus = .handlingStabilize))

instance (env : Fin n → P2pmEnv) (ring : NodeRing n) : Decidable (ring.Stands env) :=
  decidable_of_iff ((∀ i, (ring.actors i).terminated = false) ∧ (∀ i, (ring.actors i).node.Member) ∧
      (∀ i, (ring.actors i).node.successorSocket.connected = [(env (i + 1)).endpoint]) ∧
      ∀ i, ∀ tk ∈ ring.commands i, tk.buf1.length < 2 ^ 64 ∧ tk.buf2.length < 2 ^ 64)
    ⟨fun all => ⟨all.1, all.2.1, all.2.2.1, all.2.2.2⟩, fun stands => ⟨stands.runs, stands.member, stands.connected, stands.addressable⟩⟩

-- Two nodes, A and B.
def sampleNodeRing : NodeRing 2 where
  daemons := sampleTokenRing.daemons
  commands := fun _ => []
  actors := fun i => { sampleIdle with node := { sampleP2pm with
    successorSocket := { id := 1, connected := [(sampleMemberEnv i.rev).endpoint], inbox := [] } } }
  wire := fun _ => []
  tickets := 0

-- A client opens the space at A. The p2pmd of A sends the activation to that of B, which passes it up, and it goes round.
def sampleNodeMoves : List (NodeMove 2) :=
  [.hears (Fin.last 1).rev false (sampleConnect sampleClient 0).input,
    .passes (Fin.last 1).rev [] [] [] { server := false, successor := false, predecessor := false, pipe := true },
    .passes (Fin.last 1) [.next [some 7]] [] [] { server := true, successor := false, predecessor := false, pipe := false },
    .lifts (Fin.last 1) 0,
    .passes (Fin.last 1) [] [] [] { server := false, successor := false, predecessor := false, pipe := true },
    .passes (Fin.last 1).rev [.next [some 7]] [] [] { server := true, successor := false, predecessor := false, pipe := false },
    .lifts (Fin.last 1).rev 0]

theorem sample_nodes_fresh : sampleNodeRing.Fresh :=
  ⟨fun _ => rfl, fun _ => rfl, fun _ => rfl, fun _ => rfl, fun _ => ⟨rfl, rfl⟩⟩

theorem sample_nodes_stand : Runs.Throughout (NodeRing.step (fun _ => samplePlatform) sampleMemberEnv) (NodeRing.Stands sampleMemberEnv)
    sampleNodeRing sampleNodeMoves := by decide +kernel

theorem sample_connect_accepts (client : Identity) (mode : UInt32) (ring : NodeRing 2) (i : Fin 2)
    (connect : commandOf HostOrder.little (sampleConnect client mode).input = .ok (some .tsConnect)) :
    ring.Accepts (fun _ => samplePlatform) sampleMemberEnv (.hears i false (sampleConnect client mode).input) := by
  intro action command
  cases connect.symm.trans command
  exact ⟨by decide, by decide⟩

theorem sample_moves_accepted (move : NodeMove 2) (member : move ∈ sampleNodeMoves) (ring : NodeRing 2) :
    ring.Accepts (fun _ => samplePlatform) sampleMemberEnv move := by
  simp only [sampleNodeMoves, List.mem_cons, List.not_mem_nil, or_false] at member
  rcases member with same | same | same | same | same | same | same
  all_goals subst same
  · exact sample_connect_accepts sampleClient 0 ring _ rfl
  all_goals first
    | trivial
    | exact fun identity message member => by simp at member

theorem sample_nodes_accept : Runs.Meets (NodeRing.step (fun _ => samplePlatform) sampleMemberEnv)
    (NodeRing.Accepts (fun _ => samplePlatform) sampleMemberEnv) sampleNodeRing sampleNodeMoves :=
  Runs.meets_of_forall _ _ _ _ sample_moves_accepted

set_option maxRecDepth 20000 in
theorem nodes_realise_token_ring_two : ∃ last image,
    Runs.run (NodeRing.step (fun _ => samplePlatform) sampleMemberEnv) sampleNodeRing sampleNodeMoves = some last ∧
      Runs.run (TokenRing.step fun _ => samplePlatform) sampleTokenRing
        [.hears 0 false (sampleConnect sampleClient 0).input, .delivers 1 0, .delivers 0 0] = some image ∧
      image.daemons = last.daemons := by
  obtain ⟨last, ran⟩ : ∃ last,
      Runs.run (NodeRing.step (fun _ => samplePlatform) sampleMemberEnv) sampleNodeRing sampleNodeMoves = some last :=
    ⟨_, rfl⟩
  obtain ⟨image, reached, same, -⟩ := nodes_realise_token_ring _ _ _ last _ sample_nodes_fresh sample_nodes_stand sample_nodes_accept ran
  exact ⟨last, image, ran, reached, same⟩

def NodeRing.telling (env : Fin n → P2pmEnv) (ring : NodeRing n) (spaceName : Bytes) (i : Fin n) : List GenericToken :=
  (ring.inTransit env i).filter fun tk => (tk.signal spaceName).isSome

theorem nodes_spread (platform : Fin n → Platform) (env : Fin n → P2pmEnv) (spaceName : Bytes) (M : Fin n) (ring last : NodeRing n)
    (moves : List (NodeMove n)) (fresh : ring.Fresh) (closed : TokenRing.Fresh spaceName M ⟨ring.daemons, fun _ => [], ring.tickets, []⟩)
    (clean : NulFree (ring.daemons M).endpoint) (nameClean : NulFree spaceName)
    (connects : ∀ move ∈ moves.flatMap NodeMove.shown, move.Calls fun _ arrival => ∃ mode, arrival.call = .tsOpen mode)
    (stands : Runs.Throughout (NodeRing.step platform env) (NodeRing.Stands env) ring moves)
    (accepts : Runs.Meets (NodeRing.step platform env) (NodeRing.Accepts platform env) ring moves)
    (ran : Runs.run (NodeRing.step platform env) ring moves = some last) :
    ∃ image k, Spread spaceName (ring.daemons M).endpoint M k image ∧ image.daemons = last.daemons ∧
      (∀ i, (image.told spaceName i).map Passing.token = last.telling env spaceName i) ∧
      (Roomy spaceName (ring.daemons M).endpoint ⟨ring.daemons, fun _ => [], ring.tickets, []⟩ →
        Roomy spaceName (ring.daemons M).endpoint image) := by
  obtain ⟨image, reached, realised⟩ := realised_run platform env ring last moves fresh stands accepts ran
  obtain ⟨⟨k, spread⟩, roomy⟩ := Runs.run_guarded_invariant (TokenRing.step platform)
    (fun _ move => move.Calls fun _ arrival => ∃ mode, arrival.call = .tsOpen mode)
    (fun image => (∃ k, Spread spaceName (ring.daemons M).endpoint M k image) ∧
      (Roomy spaceName (ring.daemons M).endpoint ⟨ring.daemons, fun _ => [], ring.tickets, []⟩ →
        Roomy spaceName (ring.daemons M).endpoint image))
    (fun image move next inv permitted moved =>
      have kept := move_spread platform spaceName _ M image next move clean nameClean inv.1 permitted moved
      ⟨kept.1, fun start => kept.2 (inv.2 start)⟩)
    _ image _ ⟨⟨0, fresh_spread spaceName M _ closed⟩, id⟩ (Runs.meets_of_forall _ _ _ _ fun move member _ => connects move member) reached
  refine ⟨image, k, spread, realised.daemons, fun i => ?_, roomy⟩
  rw [NodeRing.telling, ← realised.tokens i, TokenRing.told, tellings, List.filter_map]
  rfl

-- With the master open and nothing on its way, the activation has been all the way round.
theorem spread_open (spaceName endpoint : Bytes) (M : Fin n) (k : Nat) (env : Fin n → P2pmEnv) (last : NodeRing n) (image : TokenRing n)
    (spread : Spread spaceName endpoint M k image) (daemons : image.daemons = last.daemons)
    (telling : ∀ i, (image.told spaceName i).map Passing.token = last.telling env spaceName i)
    (open_ : ∃ element, (last.daemons M).spaceTable spaceName = some element ∧ element.isActivated = true)
    (quiet : ∀ i, last.telling env spaceName i = []) (i : Fin n) (element : TsdElement)
    (found : (last.daemons i).spaceTable spaceName = some element) :
    element.isActivated = true ∧ (i ≠ M → cstr element.directEndpoint = endpoint) := by
  obtain ⟨master, there, active⟩ := open_
  rw [← daemons] at there found
  have here : image.active spaceName M = true := by
    rw [TokenRing.active, show image.space spaceName M = some master from there]
    exact active
  exact spread_done spaceName _ M k image spread here (fun j => List.map_eq_nil_iff.mp ((telling j).trans (quiet j))) i element found

-- So what a ring of daemons does with its tokens it does through its p2pmd. Whatever TsConnects the daemons get: at most one token tells of
-- the space, and once its master has it open and none is on its way, all that hold it have it open and know where the master is.
theorem nodes_open_space (platform : Fin n → Platform) (env : Fin n → P2pmEnv) (spaceName : Bytes) (M : Fin n) (ring last : NodeRing n)
    (moves : List (NodeMove n)) (fresh : ring.Fresh) (closed : TokenRing.Fresh spaceName M ⟨ring.daemons, fun _ => [], ring.tickets, []⟩)
    (clean : NulFree (ring.daemons M).endpoint) (nameClean : NulFree spaceName)
    (connects : ∀ move ∈ moves.flatMap NodeMove.shown, move.Calls fun _ arrival => ∃ mode, arrival.call = .tsOpen mode)
    (stands : Runs.Throughout (NodeRing.step platform env) (NodeRing.Stands env) ring moves)
    (accepts : Runs.Meets (NodeRing.step platform env) (NodeRing.Accepts platform env) ring moves)
    (ran : Runs.run (NodeRing.step platform env) ring moves = some last) :
    ∑ i, (last.telling env spaceName i).length ≤ 1 ∧
      ((∃ element, (last.daemons M).spaceTable spaceName = some element ∧ element.isActivated = true) →
        (∀ i, last.telling env spaceName i = []) → ∀ i element, (last.daemons i).spaceTable spaceName = some element →
          element.isActivated = true ∧ (i ≠ M → cstr element.directEndpoint = (ring.daemons M).endpoint)) := by
  obtain ⟨image, k, spread, daemons, telling, -⟩ :=
    nodes_spread platform env spaceName M ring last moves fresh closed clean nameClean connects stands accepts ran
  constructor
  · have once := spread_once spaceName _ M k image spread
    have lengths : ∀ i, (last.telling env spaceName i).length = (image.told spaceName i).length := fun i => by
      rw [← telling i, List.length_map]
    simpa only [lengths] using once
  · exact spread_open spaceName _ M k env last image spread daemons telling

theorem sample_nodes_connect : ∀ move ∈ sampleNodeMoves.flatMap NodeMove.shown,
    move.Calls fun _ arrival => ∃ mode, arrival.call = .tsOpen mode := by
  intro move member
  have shown : sampleNodeMoves.flatMap NodeMove.shown = [(sampleConnect sampleClient 0).move 0, .delivers 1 0, .delivers 0 0] := rfl
  rw [shown, List.mem_cons, List.mem_cons, List.mem_singleton] at member
  rcases member with same | same | same
  all_goals rw [same]
  · exact Move.Calls.asks 0 _ ⟨0, rfl⟩
  · exact Move.Calls.delivers 1 0
  · exact Move.Calls.delivers 0 0

set_option maxRecDepth 20000 in
theorem nodes_open_space_two : ∃ last,
    Runs.run (NodeRing.step (fun _ => samplePlatform) sampleMemberEnv) sampleNodeRing sampleNodeMoves = some last ∧
    ∃ element, (last.daemons 1).spaceTable [115] = some element ∧ element.isActivated = true ∧ cstr element.directEndpoint = [65] := by
  obtain ⟨last, ran, active, quiet, there⟩ : ∃ last,
      Runs.run (NodeRing.step (fun _ => samplePlatform) sampleMemberEnv) sampleNodeRing sampleNodeMoves = some last ∧
      (∃ element, (last.daemons 0).spaceTable [115] = some element ∧ element.isActivated = true) ∧
      (∀ i, last.telling sampleMemberEnv [115] i = []) ∧ ((last.daemons 1).spaceTable [115]).isSome :=
    ⟨_, rfl, ⟨_, rfl, rfl⟩, fun i => match i with | 0 => rfl | 1 => rfl, rfl⟩
  obtain ⟨element, found⟩ := Option.isSome_iff_exists.mp there
  have opened := (nodes_open_space _ _ [115] 0 sampleNodeRing last sampleNodeMoves sample_nodes_fresh sample_ring_fresh
    (by decide) (by decide)
    sample_nodes_connect sample_nodes_stand sample_nodes_accept ran).2 active quiet 1 element found
  exact ⟨last, ran, element, found, opened.1, opened.2 (by decide)⟩

end Synergy
