import Synergy.Framing
import Synergy.NodeRing

set_option autoImplicit false

namespace Synergy

-- What tsd_listen polls: the two ROUTER sockets and the pipe from p2pmd.
inductive PollItem where
  | socket (isLocal : Bool)
  | actorPipe
deriving DecidableEq, Repr

-- The order in which it looks at them, and after the last one it polls again.
def PollItem.next : PollItem → PollItem
  | .socket true => .socket false
  | .socket false => .actorPipe
  | .actorPipe => .socket true

def PollItem.ahead (current item : PollItem) : Nat := if current = item then 0 else if current.next = item then 1 else 2

-- The frames that wait at a ROUTER socket, and ZMQ_RCVMORE. due is ghost: the messages that no call of handler has been for.
structure Inlet where
  waiting : List Frame
  rcvmore : Bool
  due : List (List Frame)

-- Daemons around a ring that listen, each with its p2pmd. item: what tsd_listen looks at next.
structure Listening (n : Nat) where
  ring : NodeRing n
  inlets : Fin n → Bool → Inlet
  item : Fin n → PollItem

-- A client's message comes in, a daemon looks at its next item, its p2pmd makes a pass.
inductive ListenMove (n : Nat) where
  | arrives (i : Fin n) (isLocal : Bool) (message : List Frame)
  | looks (i : Fin n) (chunks : List Chunk) (stray : UInt8)
  | passes (i : Fin n) (incoming : List Incoming) (successor predecessor : List MsgPart) (revents : Revents)

variable {n : Nat} [NeZero n]

def Listening.withInlet (self : Listening n) (i : Fin n) (isLocal : Bool) (inlet : Inlet) : Listening n :=
  { self with inlets := Function.update self.inlets i (Function.update (self.inlets i) isLocal inlet) }

-- handler, if the socket is readable.
def Listening.hear (platform : Fin n → Platform) (self : Listening n) (i : Fin n) (isLocal : Bool) (chunks : List Chunk) :
    Option (Listening n) :=
  let inlet := self.inlets i isLocal
  if inlet.waiting = [] then some self
  else
    match handler (platform i) (self.ring.daemons i) isLocal self.ring.tickets ⟨inlet.waiting, inlet.rcvmore, chunks⟩ with
    | .error _ => none
    | .ok handled =>
        some { self.withInlet i isLocal ⟨handled.input.frames, handled.input.rcvmore, inlet.due.tail⟩ with
          ring := { self.ring.hand i handled.self handled.sent with tickets := self.ring.tickets + 1 } }

-- token_handler, if the pipe is readable.
def Listening.lift (platform : Fin n → Platform) (env : Fin n → P2pmEnv) (self : Listening n) (i : Fin n) (stray : UInt8) :
    Option (Listening n) :=
  if (self.ring.actors i).pipe.isEmpty then some self
  else (self.ring.step platform env (.lifts i stray)).map fun ring => { self with ring := ring }

-- Nothing is readable, and zmq_poll waits.
def Listening.idle (self : Listening n) (i : Fin n) : Bool :=
  (self.inlets i true).waiting.isEmpty && (self.inlets i false).waiting.isEmpty && (self.ring.actors i).pipe.isEmpty

-- The loop polls before it looks at the local socket, and polls the others again before it looks at them: what it finds is what
-- waits by then.
def Listening.look (platform : Fin n → Platform) (env : Fin n → P2pmEnv) (self : Listening n) (i : Fin n) (chunks : List Chunk)
    (stray : UInt8) : Option (Listening n) :=
  match self.item i with
  | .socket isLocal => if isLocal ∧ self.idle i then none else self.hear platform i isLocal chunks
  | .actorPipe => self.lift platform env i stray

def Listening.step (platform : Fin n → Platform) (env : Fin n → P2pmEnv) (self : Listening n) : ListenMove n → Option (Listening n)
  | .arrives i isLocal message =>
      let inlet := self.inlets i isLocal
      some (self.withInlet i isLocal { inlet with waiting := inlet.waiting ++ message, due := inlet.due ++ [message] })
  | .looks i chunks stray =>
      (self.look platform env i chunks stray).map fun next => { next with item := Function.update self.item i (self.item i).next }
  | .passes i incoming successor predecessor revents =>
      (self.ring.step platform env (.passes i incoming successor predecessor revents)).map fun ring => { self with ring := ring }

-- What a step is in the ring of daemons.
def Listening.heard (self : Listening n) (i : Fin n) (isLocal : Bool) (chunks : List Chunk) : List (NodeMove n) :=
  let inlet := self.inlets i isLocal
  if inlet.waiting = [] then [] else [.hears i isLocal ⟨inlet.waiting, inlet.rcvmore, chunks⟩]

def Listening.shown (self : Listening n) : ListenMove n → List (NodeMove n)
  | .arrives .. => []
  | .looks i chunks stray =>
      match self.item i with
      | .socket isLocal => self.heard i isLocal chunks
      | .actorPipe => if (self.ring.actors i).pipe.isEmpty then [] else [.lifts i stray]
  | .passes i incoming successor predecessor revents => [.passes i incoming successor predecessor revents]

def NodeMove.message (i : Fin n) (isLocal : Bool) : NodeMove n → Option (List Frame)
  | .hears j other input => if j = i ∧ other = isLocal then (Multipart.receive Frame.more [] input.frames).1.head? else none
  | _ => none

def NodeMove.isLift (i : Fin n) : NodeMove n → Bool
  | .lifts j _ => j == i
  | _ => false

def ListenMove.message (i : Fin n) (isLocal : Bool) : ListenMove n → Option (List Frame)
  | .arrives j other message => if j = i ∧ other = isLocal then some message else none
  | _ => none

def ListenMove.isLook (i : Fin n) : ListenMove n → Bool
  | .looks j _ _ => j == i
  | _ => false

-- How many messages of an item wait, and how many have been taken.
def Listening.waits (self : Listening n) (i : Fin n) : PollItem → Nat
  | .socket isLocal => (self.inlets i isLocal).due.length
  | .actorPipe => (self.ring.actors i).pipe.length

def countTaken (i : Fin n) (moves : List (NodeMove n)) : PollItem → Nat
  | .socket isLocal => (moves.filterMap (NodeMove.message i isLocal)).length
  | .actorPipe => moves.countP (NodeMove.isLift i)

-- What waits at a socket is whole messages.
structure Listening.Sound (listening : Listening n) : Prop where
  aligned : ∀ i isLocal, (listening.inlets i isLocal).waiting = (listening.inlets i isLocal).due.flatten
  whole : ∀ i isLocal, ∀ message ∈ (listening.inlets i isLocal).due, Multipart.Message Frame.more message

-- Messages come whole, and one that handler is called for is framed in the state the daemon is in.
def Listening.Fits (platform : Fin n → Platform) (self : Listening n) : ListenMove n → Prop
  | .arrives _ _ message => Multipart.Message Frame.more message
  | .looks i _ _ => ∀ isLocal, self.item i = .socket isLocal → ∀ message ∈ (self.inlets i isLocal).due.head?,
      Framed (platform i) (self.ring.daemons i) isLocal message
  | .passes .. => True

omit [NeZero n] in
theorem count_taken_append (i : Fin n) (first second : List (NodeMove n)) (item : PollItem) :
    countTaken i (first ++ second) item = countTaken i first item + countTaken i second item := by
  cases item with
  | socket isLocal => simp only [countTaken, List.filterMap_append, List.length_append]
  | actorPipe => simp only [countTaken, List.countP_append]

theorem hear_result (platform : Fin n → Platform) (env : Fin n → P2pmEnv) (self next : Listening n) (i : Fin n) (isLocal : Bool)
    (chunks : List Chunk) (sound : self.Sound)
    (fits : ∀ message ∈ (self.inlets i isLocal).due.head?, Framed (platform i) (self.ring.daemons i) isLocal message)
    (done : self.hear platform i isLocal chunks = some next) :
    ((self.inlets i isLocal).due = [] ∧ self.heard i isLocal chunks = [] ∧ next = self) ∨
      ∃ message later rcvmore ring input, (self.inlets i isLocal).due = message :: later ∧
        self.heard i isLocal chunks = [.hears i isLocal input] ∧ input.frames = (message :: later).flatten ∧
        self.ring.step platform env (.hears i isLocal input) = some ring ∧ ring.actors = self.ring.actors ∧
        next = { self.withInlet i isLocal ⟨later.flatten, rcvmore, later⟩ with ring := ring } := by
  have aligned := sound.aligned i isLocal
  have whole := sound.whole i isLocal
  unfold Listening.hear at done
  unfold Listening.heard
  dsimp only at done ⊢
  cases due : (self.inlets i isLocal).due with
  | nil =>
      rw [due, List.flatten_nil] at aligned
      rw [if_pos aligned] at done ⊢
      cases done
      exact Or.inl ⟨rfl, rfl, rfl⟩
  | cons message later =>
      rw [due] at aligned whole fits
      have first := whole message (List.mem_cons_self ..)
      have some_ : (self.inlets i isLocal).waiting ≠ [] := by
        obtain ⟨front, last, same, -⟩ := first
        rw [aligned, same]
        simp
      rw [if_neg some_] at done ⊢
      split at done
      · cases done
      · rename_i handled ran
        cases done
        have left : handled.input.frames = later.flatten := by
          rw [aligned, List.flatten_cons] at ran
          exact (handler_keeps_boundaries (platform i) _ isLocal _ message _ _ chunks handled first ran).mpr (fits message rfl)
        refine Or.inr ⟨message, later, handled.input.rcvmore,
          { self.ring.hand i handled.self handled.sent with tickets := self.ring.tickets + 1 }, _, rfl, rfl, aligned, ?_, rfl, ?_⟩
        · simp only [NodeRing.step, ran]
        · rw [left, due]
          rfl

-- One step: the run of the ring it is, and what it leaves and takes of the messages.
structure StepListens (platform : Fin n → Platform) (env : Fin n → P2pmEnv) (before next : Listening n) (move : ListenMove n) : Prop where
  runs : Runs.run (NodeRing.step platform env) before.ring (before.shown move) = some next.ring
  sound : next.Sound
  order : ∀ i isLocal, (before.shown move).filterMap (NodeMove.message i isLocal) ++ (next.inlets i isLocal).due =
    (before.inlets i isLocal).due ++ (move.message i isLocal).toList
  item : ∀ i, next.item i = if move.isLook i then (before.item i).next else before.item i
  pipe : ∀ i, (before.ring.actors i).pipe.length ≤ (next.ring.actors i).pipe.length + countTaken i (before.shown move) .actorPipe
  serves : ∀ i, move.isLook i = true → before.waits i (before.item i) = 0 ∨ 0 < countTaken i (before.shown move) (before.item i)

omit [NeZero n] in
theorem inlets_with (self : Listening n) (i : Fin n) (isLocal : Bool) (inlet : Inlet) (j : Fin n) (other : Bool) :
    (self.withInlet i isLocal inlet).inlets j other = if i = j ∧ isLocal = other then inlet else self.inlets j other := by
  simp only [Listening.withInlet]
  by_cases here : i = j
  · subst here
    by_cases same : isLocal = other
    · subst same
      rw [if_pos ⟨rfl, rfl⟩, Function.update_self, Function.update_self]
    · rw [if_neg fun both => same both.2, Function.update_self, Function.update_of_ne fun is => same is.symm]
  · rw [if_neg fun both => here both.1, Function.update_of_ne fun is => here is.symm]

omit [NeZero n] in
theorem with_sound (self next : Listening n) (i : Fin n) (isLocal : Bool) (inlet : Inlet) (sound : self.Sound)
    (inlets : next.inlets = (self.withInlet i isLocal inlet).inlets) (aligned : inlet.waiting = inlet.due.flatten)
    (whole : ∀ message ∈ inlet.due, Multipart.Message Frame.more message) : next.Sound := by
  constructor
  · intro j other
    rw [inlets, inlets_with]
    split
    · exact aligned
    · exact sound.aligned j other
  · intro j other
    rw [inlets, inlets_with]
    split
    · exact whole
    · exact sound.whole j other

theorem pass_pipe (platform : Fin n → Platform) (env : Fin n → P2pmEnv) (ring next : NodeRing n) (i : Fin n) (incoming : List Incoming)
    (successor predecessor : List MsgPart) (revents : Revents)
    (passed : ring.step platform env (.passes i incoming successor predecessor revents) = some next) (j : Fin n) :
    (ring.actors j).pipe.length ≤ (next.actors j).pipe.length := by
  have polled : ∀ (actor : P2pmdActor) (turn : ActorTurn), actor.pipe.length ≤ (actor.polled turn).pipe.length := by
    intro actor turn
    cases turn with
    | interrupted => exact le_rfl
    | repeats arrivals => exact le_rfl
    | polls arrivals revents command =>
        dsimp only [P2pmdActor.polled]
        split
        · exact le_rfl
        · split
          · cases command <;> simp [takeCommand]
          · exact le_rfl
  have steps : ∀ (actor later : P2pmdActor) (turn : ActorTurn), actor.step (env i) turn = some later →
      actor.pipe.length ≤ later.pipe.length := by
    intro actor later turn taken
    obtain ⟨-, ended | ⟨-, done⟩⟩ := actor_step_ok (env i) actor later turn taken
    · rw [ended.2]
      exact polled actor turn
    · obtain ⟨_, node, -, pipe, -⟩ := timeo_passed (env i) _ later done
      rw [pipe, List.length_append]
      exact Nat.le_trans (polled actor turn) (Nat.le_add_right _ _)
  simp only [NodeRing.step] at passed
  split at passed
  · cases passed
  · split at passed
    · cases passed
    · split at passed
      · cases passed
      · rename_i actor taken
        cases passed
        rw [passed_actors]
        by_cases here : j = i
        · rw [here, Function.update_self]
          exact steps _ actor _ taken
        · rw [Function.update_of_ne here]

theorem lift_pipe (platform : Fin n → Platform) (env : Fin n → P2pmEnv) (ring next : NodeRing n) (i : Fin n) (stray : UInt8)
    (lifted : ring.step platform env (.lifts i stray) = some next) (j : Fin n) :
    (ring.actors j).pipe.length = (next.actors j).pipe.length + if i = j then 1 else 0 := by
  simp only [NodeRing.step] at lifted
  split at lifted
  · rename_i token later pipe
    split at lifted
    · cases lifted
    · split at lifted
      · cases lifted
      · cases lifted
        simp only [NodeRing.hand, NodeRing.lifted]
        by_cases here : i = j
        · subst here
          rw [Function.update_self, pipe, if_pos rfl, List.length_cons]
        · rw [Function.update_of_ne fun is => here is.symm, if_neg here, Nat.add_zero]
  · cases lifted

theorem arrives_serves (platform : Fin n → Platform) (env : Fin n → P2pmEnv) (self next : Listening n) (i : Fin n) (isLocal : Bool)
    (message : List Frame) (sound : self.Sound) (whole : Multipart.Message Frame.more message)
    (taken : self.step platform env (.arrives i isLocal message) = some next) :
    StepListens platform env self next (.arrives i isLocal message) := by
  cases taken
  refine ⟨rfl, ?_, fun j other => ?_, fun j => rfl, fun j => Nat.le_add_right _ _, fun j look => by cases look⟩
  · refine with_sound self _ i isLocal _ sound rfl ?_ fun one member => ?_
    · rw [sound.aligned, List.flatten_append, List.flatten_singleton]
    · rcases List.mem_append.mp member with before | last
      · exact sound.whole i isLocal one before
      · rw [List.mem_singleton.mp last]
        exact whole
  · rw [inlets_with]
    simp only [Listening.shown, ListenMove.message, List.filterMap_nil, List.nil_append]
    split
    · rename_i here
      rw [here.1, here.2]
      rfl
    · exact (List.append_nil _).symm

omit [NeZero n] in
theorem look_item (self : Listening n) (i : Fin n) (chunks : List Chunk) (stray : UInt8) (j : Fin n) :
    Function.update self.item i (self.item i).next j =
      if (ListenMove.looks i chunks stray).isLook j then (self.item j).next else self.item j := by
  by_cases here : i = j
  · subst here
    simp [ListenMove.isLook]
  · rw [Function.update_of_ne fun is => here is.symm]
    simp [ListenMove.isLook, here]

theorem hear_serves (platform : Fin n → Platform) (env : Fin n → P2pmEnv) (self next : Listening n) (i : Fin n) (isLocal : Bool)
    (chunks : List Chunk) (stray : UInt8) (sound : self.Sound) (item : self.item i = .socket isLocal)
    (fits : ∀ message ∈ (self.inlets i isLocal).due.head?, Framed (platform i) (self.ring.daemons i) isLocal message)
    (done : self.hear platform i isLocal chunks = some next) :
    StepListens platform env self { next with item := Function.update self.item i (self.item i).next } (.looks i chunks stray) := by
  have shown : self.shown (.looks i chunks stray) = self.heard i isLocal chunks := by
    simp only [Listening.shown, item]
  rcases hear_result platform env self next i isLocal chunks sound fits done with ⟨empty, silent, same⟩ |
    ⟨message, later, rcvmore, ring, input, due, heard, frames, stepped, actors, same⟩
  · subst same
    refine ⟨by rw [shown, silent]; rfl, ⟨sound.aligned, sound.whole⟩, fun j other => ?_,
      look_item next i chunks stray, fun j => Nat.le_add_right _ _, ?_⟩
    · rw [shown, silent]
      simp [ListenMove.message]
    · intro j look
      obtain rfl : i = j := by simpa [ListenMove.isLook] using look
      left
      rw [item]
      simp only [Listening.waits, empty, List.length_nil]
  · subst same
    have first : ∀ j other, (self.heard i isLocal chunks).filterMap (NodeMove.message j other) =
        if i = j ∧ isLocal = other then [message] else [] := by
      intro j other
      have read := Multipart.receive_messages Frame.more (message :: later) (due ▸ sound.whole i isLocal)
      rw [heard, List.filterMap_cons, NodeMove.message, frames, read]
      split <;> rename_i is <;> split at is
      · cases is
      · rename_i elsewhere
        rw [if_neg elsewhere]
        rfl
      · rename_i here
        cases is
        rw [if_pos here]
        rfl
      · cases is
    refine ⟨?_, ?_, fun j other => ?_, look_item self i chunks stray, fun j => ?_, ?_⟩
    · rw [shown, heard]
      simp only [Runs.run, stepped]
    · exact with_sound self _ i isLocal _ sound rfl rfl fun one member => sound.whole i isLocal one (due ▸ List.mem_cons_of_mem _ member)
    · rw [shown, first]
      simp only [inlets_with, ListenMove.message, Option.toList_none, List.append_nil]
      split
      · rename_i here
        rw [← here.1, ← here.2, due]
        rfl
      · rfl
    · simp only [actors]
      exact Nat.le_add_right _ _
    · intro j look
      obtain rfl : i = j := by simpa [ListenMove.isLook] using look
      right
      rw [shown, item]
      simp only [countTaken, first, and_self, if_true, List.length_singleton]
      exact Nat.one_pos

theorem lift_serves (platform : Fin n → Platform) (env : Fin n → P2pmEnv) (self next : Listening n) (i : Fin n) (chunks : List Chunk)
    (stray : UInt8) (sound : self.Sound) (item : self.item i = .actorPipe) (done : self.lift platform env i stray = some next) :
    StepListens platform env self { next with item := Function.update self.item i (self.item i).next } (.looks i chunks stray) := by
  have shown : self.shown (.looks i chunks stray) = if (self.ring.actors i).pipe.isEmpty then [] else [.lifts i stray] := by
    simp only [Listening.shown, item]
  have unheard : ∀ j other, (self.shown (.looks i chunks stray)).filterMap (NodeMove.message j other) = [] := by
    intro j other
    rw [shown]
    split <;> rfl
  have beside : ∀ j other, (self.shown (.looks i chunks stray)).filterMap (NodeMove.message j other) ++ (self.inlets j other).due =
      (self.inlets j other).due ++ ((ListenMove.looks i chunks stray).message j other).toList := by
    intro j other
    rw [unheard, List.nil_append]
    exact (List.append_nil _).symm
  unfold Listening.lift at done
  split at done
  · rename_i empty
    cases done
    refine ⟨by rw [shown, if_pos empty]; rfl, ⟨sound.aligned, sound.whole⟩, beside, look_item self i chunks stray,
      fun j => Nat.le_add_right _ _, fun j look => ?_⟩
    obtain rfl : i = j := by simpa [ListenMove.isLook] using look
    left
    rw [item]
    simpa [Listening.waits] using empty
  · rename_i some_
    obtain ⟨ring, lifted, same⟩ := Option.map_eq_some_iff.mp done
    subst same
    have lifts : ∀ j, countTaken j (self.shown (.looks i chunks stray)) .actorPipe = if i = j then 1 else 0 := by
      intro j
      rw [shown, if_neg some_]
      simp [countTaken, NodeMove.isLift, List.countP_cons]
    refine ⟨?_, ⟨sound.aligned, sound.whole⟩, beside, look_item self i chunks stray, fun j => ?_, fun j look => ?_⟩
    · rw [shown, if_neg some_]
      simp only [Runs.run, lifted]
    · rw [lifts]
      exact Nat.le_of_eq (lift_pipe platform env self.ring ring i stray lifted j)
    · obtain rfl : i = j := by simpa [ListenMove.isLook] using look
      right
      rw [item, lifts, if_pos rfl]
      exact Nat.one_pos

theorem step_serves (platform : Fin n → Platform) (env : Fin n → P2pmEnv) (self next : Listening n) (move : ListenMove n)
    (sound : self.Sound) (fits : self.Fits platform move) (taken : self.step platform env move = some next) :
    StepListens platform env self next move := by
  cases move with
  | arrives i isLocal message => exact arrives_serves platform env self next i isLocal message sound fits taken
  | looks i chunks stray =>
      obtain ⟨looked, done, same⟩ := Option.map_eq_some_iff.mp taken
      subst same
      unfold Listening.look at done
      cases item : self.item i with
      | socket isLocal =>
          rw [item] at done
          dsimp only at done
          split at done
          · cases done
          · exact item ▸ hear_serves platform env self looked i isLocal chunks stray sound item (fits isLocal item) done
      | actorPipe =>
          rw [item] at done
          exact item ▸ lift_serves platform env self looked i chunks stray sound item done
  | passes i incoming successor predecessor revents =>
      obtain ⟨ring, passed, same⟩ := Option.map_eq_some_iff.mp taken
      subst same
      refine ⟨?_, ⟨sound.aligned, sound.whole⟩, fun j other => (List.append_nil _).symm, fun j => rfl, fun j => ?_,
        fun j look => by cases look⟩
      · simp only [Listening.shown, Runs.run, passed]
      · exact Nat.le_trans (pass_pipe platform env self.ring ring i incoming successor predecessor revents passed j) (Nat.le_add_right _ _)

theorem serves_waits (platform : Fin n → Platform) (env : Fin n → P2pmEnv) (self next : Listening n) (move : ListenMove n)
    (serves : StepListens platform env self next move) (i : Fin n) (item : PollItem) :
    self.waits i item ≤ next.waits i item + countTaken i (self.shown move) item := by
  cases item with
  | socket isLocal =>
      have lengths := congrArg List.length (serves.order i isLocal)
      rw [List.length_append, List.length_append] at lengths
      simp only [Listening.waits, countTaken]
      omega
  | actorPipe => exact serves.pipe i

theorem ahead_next (current item : PollItem) :
    if current = item then current.ahead item = 0 ∧ current.next.ahead item = 2
    else current.ahead item = current.next.ahead item + 1 := by
  cases current with
  | socket isLocal => cases isLocal <;> cases item with
      | socket other => cases other <;> decide
      | actorPipe => decide
  | actorPipe => cases item with
      | socket other => cases other <;> decide
      | actorPipe => decide

theorem ahead_le (current item : PollItem) : current.ahead item ≤ 2 := by
  unfold PollItem.ahead
  split
  · exact Nat.zero_le _
  · split <;> decide

-- A run: what it is in the ring of daemons, and what it takes of the messages.
structure Listens (platform : Fin n → Platform) (env : Fin n → P2pmEnv) (before last : Listening n) (moves : List (ListenMove n))
    (shown : List (NodeMove n)) : Prop where
  runs : Runs.run (NodeRing.step platform env) before.ring shown = some last.ring
  order : ∀ i isLocal, shown.filterMap (NodeMove.message i isLocal) ++ (last.inlets i isLocal).due =
    (before.inlets i isLocal).due ++ moves.filterMap (ListenMove.message i isLocal)
  pace : ∀ i item, min ((moves.countP (ListenMove.isLook i) + 2 - (before.item i).ahead item) / 3) (before.waits i item) ≤
    countTaken i shown item

theorem run_listens (platform : Fin n → Platform) (env : Fin n → P2pmEnv) (self last : Listening n) (moves : List (ListenMove n))
    (sound : self.Sound) (fits : Runs.Meets (Listening.step platform env) (Listening.Fits platform) self moves)
    (ran : Runs.run (Listening.step platform env) self moves = some last) :
    ∃ shown, Listens platform env self last moves shown := by
  induction moves generalizing self with
  | nil =>
      cases ran
      refine ⟨[], rfl, fun i isLocal => (List.append_nil _).symm, fun i item => ?_⟩
      have none_ : (List.countP (ListenMove.isLook i) [] + 2 - (last.item i).ahead item) / 3 = 0 := by
        rw [List.countP_nil]
        omega
      rw [none_]
      exact Nat.zero_le _
  | cons move rest ih =>
      obtain ⟨next, stepped, remaining⟩ := Runs.run_cons_some _ self last move rest ran
      obtain ⟨fit, later⟩ := fits next stepped
      have serves := step_serves platform env self next move sound fit stepped
      obtain ⟨shown, listens⟩ := ih next serves.sound later remaining
      refine ⟨self.shown move ++ shown, Runs.run_joined _ _ _ _ _ _ serves.runs listens.runs, fun i isLocal => ?_, fun i item => ?_⟩
      · have come : (move :: rest).filterMap (ListenMove.message i isLocal) =
            (move.message i isLocal).toList ++ rest.filterMap (ListenMove.message i isLocal) := by
          rw [List.filterMap_cons]
          cases move.message i isLocal <;> rfl
        rw [List.filterMap_append, List.append_assoc, listens.order, ← List.append_assoc, serves.order, come, List.append_assoc]
      · have waits := serves_waits platform env self next move serves i item
        have pace := listens.pace i item
        have bound := ahead_le (next.item i) item
        rw [count_taken_append, List.countP_cons]
        rw [serves.item i] at pace bound
        by_cases look : move.isLook i = true
        · rw [if_pos look] at pace bound ⊢
          have turn := ahead_next (self.item i) item
          by_cases here : self.item i = item
          · -- it looks at the item, and takes a message if one waits
            rw [if_pos here] at turn
            rcases serves.serves i look with nothing | one
            · rw [here] at nothing
              rw [nothing]
              omega
            · rw [here] at one
              omega
          · rw [if_neg here] at turn
            omega
        · rw [if_neg look] at pace bound ⊢
          omega

-- Daemons that listen are daemons whose handlers are called in some order: each run is a run of the ring. As long as each message is framed
-- as its handler receives it, those of a socket are taken whole, in the order in which they came and once each, and none waits for ever: a
-- daemon that has looked at its items three times for each message before it, and three times more, has taken it, whatever comes in on the
-- other sockets.
theorem daemons_listen (platform : Fin n → Platform) (env : Fin n → P2pmEnv) (start last : Listening n) (moves : List (ListenMove n))
    (sound : start.Sound) (fits : Runs.Meets (Listening.step platform env) (Listening.Fits platform) start moves)
    (ran : Runs.run (Listening.step platform env) start moves = some last) :
    ∃ shown, Runs.run (NodeRing.step platform env) start.ring shown = some last.ring ∧
      (∀ i isLocal, shown.filterMap (NodeMove.message i isLocal) ++ (last.inlets i isLocal).due =
        (start.inlets i isLocal).due ++ moves.filterMap (ListenMove.message i isLocal)) ∧
      ∀ i item, min (moves.countP (ListenMove.isLook i) / 3) (start.waits i item) ≤ countTaken i shown item := by
  obtain ⟨shown, listens⟩ := run_listens platform env start last moves sound fits ran
  refine ⟨shown, listens.runs, listens.order, fun i item => ?_⟩
  have pace := listens.pace i item
  have bound := ahead_le (start.item i) item
  omega

-- A TsConnect waits at the server of A.
def sampleGreeting : List Frame := sampleMessage .tsConnect [sendUint32Frame .big 0 false]

def sampleListening : Listening 2 where
  ring := sampleNodeRing
  inlets := fun i isLocal =>
    if i.val = 0 ∧ isLocal = false then ⟨sampleGreeting, false, [sampleGreeting]⟩ else ⟨[], false, []⟩
  item := fun _ => .socket true

def sampleLooks : List (ListenMove 2) := List.replicate 3 (.looks (Fin.last 1).rev [] 0)

theorem sample_greeting_whole : Multipart.Message Frame.more sampleGreeting :=
  ⟨[⟨[67], true⟩, sendUint32Frame .big 2 true, ⟨[115], true⟩, sendUint32Frame .big TupleCommand.tsConnect.code true],
    sendUint32Frame .big 0 false, rfl, by simp [sendUint32Frame], rfl⟩

theorem sample_listening_sound : sampleListening.Sound := by
  constructor
  · intro i isLocal
    simp only [sampleListening]
    split <;> simp
  · intro i isLocal message member
    simp only [sampleListening] at member
    split at member
    · rw [List.mem_singleton.mp member]
      exact sample_greeting_whole
    · cases member

set_option maxRecDepth 20000 in
theorem sample_looks_fit : Runs.Meets (Listening.step (fun _ => samplePlatform) sampleMemberEnv) (Listening.Fits fun _ => samplePlatform)
    sampleListening sampleLooks := by
  intro first stepped
  cases stepped
  refine ⟨fun isLocal item message member => ?_, ?_⟩
  · cases item
    cases member
  intro second stepped
  cases stepped
  refine ⟨fun isLocal item message member => ?_, ?_⟩
  · cases item
    cases member
    decide
  intro third stepped
  refine ⟨fun isLocal item => ?_, trivial⟩
  cases item

set_option maxRecDepth 20000 in
theorem daemons_listen_connect : ∃ last shown,
    Runs.run (Listening.step (fun _ => samplePlatform) sampleMemberEnv) sampleListening sampleLooks = some last ∧
      Runs.run (NodeRing.step (fun _ => samplePlatform) sampleMemberEnv) sampleNodeRing shown = some last.ring ∧
      1 ≤ (shown.filterMap (NodeMove.message (Fin.last 1).rev false)).length := by
  obtain ⟨last, ran⟩ : ∃ last,
      Runs.run (Listening.step (fun _ => samplePlatform) sampleMemberEnv) sampleListening sampleLooks = some last := ⟨_, rfl⟩
  obtain ⟨shown, runs, -, pace⟩ := daemons_listen _ _ _ last _ sample_listening_sound sample_looks_fit ran
  exact ⟨last, shown, ran, runs, pace (Fin.last 1).rev (.socket false)⟩

end Synergy
