import Synergy.P2pmPeers
import Synergy.Lib.Run

set_option autoImplicit false

namespace Synergy

-- The timer of p2pm_loop_server.
def stabilizeTimer (env : P2pmEnv) (self : P2pm) : P2pm :=
  if self.currentStatus = .member then
    let (now, self) := zclockMono env self
    if now - self.lastStabilizeTime > env.stabilizeInterval then
      { self with serverTriggeredActions := .triggerStabilize, currentStatus := .handlingStabilize }
    else self
  else self

-- p2pm_loop_server behind the server's message.
def loopSockets (env : P2pmEnv) (self : P2pm) : Except Stop P2pm := do
  let self ← successorSocketHandler env (stabilizeTimer env self)
  let self ← predecessorSocketHandler env env.depth self
  return { self with serverTriggeredActions := .noXpv }

def p2pmLoopServer (env : P2pmEnv) (self : P2pm) : Except Stop (P2pmOpcodes × P2pm) :=
  if self.revents.server then
    match self.serverInbox with
    | [] => .ok (.tryagain, self)
    | identity :: later => do
        let (_, self) ← serveMessage env self identity later
        let self ← loopSockets env self
        return (.success, self)
  else do
    let self ← loopSockets env self
    return (.success, self)

inductive PipeCommand where
  | getPredecessorEndpt
  | getSuccessorEndpt
  | sendToken (token : Token)
  | terminate

inductive PipeMessage where
  | endpoint (bytes : Bytes)
  | token (token : Token)
deriving DecidableEq

-- p2pmd_actor in its loop. again: it goes back to _process_timeo and does not poll.
structure P2pmdActor where
  node : P2pm
  pipe : List PipeMessage
  again : Bool
  nextTimeo : Int
  terminated : Bool

-- What has come in on the three sockets.
structure Arrivals where
  server : List MsgPart
  successor : List MsgPart
  predecessor : List MsgPart

def P2pm.arrive (self : P2pm) (arrivals : Arrivals) : P2pm :=
  { self with
    serverInbox := self.serverInbox ++ arrivals.server
    successorSocket := { self.successorSocket with inbox := self.successorSocket.inbox ++ arrivals.successor }
    predecessorSocket := { self.predecessorSocket with inbox := self.predecessorSocket.inbox ++ arrivals.predecessor } }

def takeCommand (actor : P2pmdActor) : PipeCommand → P2pmdActor
  | .getPredecessorEndpt => { actor with pipe := actor.pipe ++ [.endpoint (actor.node.nodeList.predecessor ++ [0])] }
  | .getSuccessorEndpt => { actor with pipe := actor.pipe ++ [.endpoint (actor.node.nodeList.successor ++ [0])] }
  | .sendToken token => { actor with node := { actor.node with sendHasToken := true, sendToken := token } }
  | .terminate => { actor with terminated := true }

-- A received token goes up the pipe.
def passUp (actor : P2pmdActor) : P2pmdActor :=
  if actor.node.recvHasToken then
    { actor with
      pipe := actor.pipe ++ [.token actor.node.recvToken]
      node := { actor.node with recvHasToken := false, recvToken := Token.none } }
  else actor

-- From _process_timeo to the end of the loop or back there.
def processTimeo (env : P2pmEnv) (actor : P2pmdActor) : Except Stop P2pmdActor := do
  let (_, node) ← p2pmLoopServer env actor.node
  let actor := passUp { actor with node := node }
  let (now, node) := zclockMono env actor.node
  let a := env.stabilizeInterval - (now - node.lastStabilizeTime)
  let b := env.wait.toNat - (now - node.successorLastpollTime)
  let c := env.wait.toNat - (now - node.predecessorLastpollTime)
  if a < 0 ∨ b < 0 ∨ c < 0 then return { actor with node := node, again := true }
  else
    let nextTimeo := if a ≤ b ∧ a ≤ c then a else if b ≤ a ∧ b ≤ c then b else c
    return { actor with node := node, again := false, nextTimeo := nextTimeo }

-- zmq_poll returns with an error, or with revents and, when the pipe is readable, a command in it; or the loop goes on
-- without it. Before that something may have come in.
inductive ActorTurn where
  | interrupted
  | polls (arrivals : Arrivals) (revents : Revents) (command : PipeCommand)
  | repeats (arrivals : Arrivals)

-- It polls when it does not go back to _process_timeo.
def P2pmdActor.follows (actor : P2pmdActor) : ActorTurn → Bool
  | .repeats _ => actor.again
  | _ => !actor.again

-- What comes before _process_timeo. A socket of the pollers that has been closed is an error.
def P2pmdActor.polled (actor : P2pmdActor) : ActorTurn → P2pmdActor
  | .interrupted => { actor with terminated := true }
  | .polls arrivals revents command =>
      if actor.node.successorPoller ∈ actor.node.closed ∨ actor.node.predecessorPoller ∈ actor.node.closed then
        { actor with terminated := true }
      else
        let readable := { actor with node := { actor.node.arrive arrivals with revents := revents } }
        if revents.pipe then takeCommand readable command else readable
  | .repeats arrivals => { actor with node := actor.node.arrive arrivals }

def P2pmdActor.step (env : P2pmEnv) (actor : P2pmdActor) (turn : ActorTurn) : Option P2pmdActor :=
  if actor.terminated ∨ actor.follows turn = false then none
  else
    let polled := actor.polled turn
    if polled.terminated then some polled else (processTimeo env polled).toOption

end Synergy
