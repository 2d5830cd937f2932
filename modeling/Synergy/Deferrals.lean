import Synergy.P2pmMessages
import Synergy.Lib.Run

set_option autoImplicit false

namespace Synergy

-- The actions for the predecessor that handlers put off.
inductive Deferred where
  | findHead | replicate | relay
deriving DecidableEq, Repr

def Deferred.action : Deferred → P2pmExpectedActions
  | .findHead => .stabilizeFindHead
  | .replicate => .replicateBackwards
  | .relay => .relayBackwards

def Deferred.pinged : Deferred → P2pmExpectedActions
  | .findHead => .stabilizeFindHeadPinged
  | .replicate => .replicateBackwardsPinged
  | .relay => .relayBackwardsPinged

def Deferred.code : Deferred → UInt32
  | .findHead => P2pmReqtypes.findHead.code
  | .replicate => P2pmReqtypes.syncSlist.code
  | .relay => P2pmReqtypes.syncSlist.code

def P2pm.Records (self : P2pm) (deferred : Deferred) : Prop :=
  self.serverTriggeredActions = deferred.action ∨ self.predecessorTriggeredActions = deferred.pinged ∨
    self.predecessorSocketExpectedActions = deferred.action

def messageSent (env : P2pmEnv) (old new : P2pm) (deferred : Deferred) : Bool :=
  old.predecessorTriggeredActions = deferred.pinged ∧
    (new.predecessorSent.drop old.predecessorSent.length).head?.map MsgPart.bytes = some (wordPart env.host deferred.code true).bytes

inductive LoopPhase where
  | between | called | skipped | served | timed | followed | preceded
deriving DecidableEq, Repr

-- The actor within a pass of its loop. owed is ghost: the actions that have been set, and whose message has not been sent since.
structure LoopProgress where
  actor : P2pmdActor
  phase : LoopPhase
  owed : Deferred → Bool

inductive LoopStage where
  | begins (turn : ActorTurn)
  | serves
  | times
  | follows
  | precedes
  | returns

def LoopProgress.start (actor : P2pmdActor) : LoopProgress := { actor := actor, phase := .between, owed := fun _ => false }

def LoopProgress.moved (env : P2pmEnv) (self : LoopProgress) (node : P2pm) (phase : LoopPhase) : LoopProgress :=
  { actor := { self.actor with node := node }
    phase := phase
    owed := fun deferred =>
      (self.owed deferred || (node.serverTriggeredActions = deferred.action ∨ node.predecessorTriggeredActions = deferred.pinged)) &&
        !messageSent env self.actor.node node deferred }

-- What processTimeo does once p2pm_loop_server has returned.
def afterLoop (env : P2pmEnv) (actor : P2pmdActor) : P2pmdActor :=
  let actor := passUp actor
  let (now, node) := zclockMono env actor.node
  let a := env.stabilizeInterval - (now - node.lastStabilizeTime)
  let b := env.wait.toNat - (now - node.successorLastpollTime)
  let c := env.wait.toNat - (now - node.predecessorLastpollTime)
  if a < 0 ∨ b < 0 ∨ c < 0 then { actor with node := node, again := true }
  else
    let nextTimeo := if a ≤ b ∧ a ≤ c then a else if b ≤ a ∧ b ≤ c then b else c
    { actor with node := node, again := false, nextTimeo := nextTimeo }

-- A pass of the actor, one handler after the other.
def LoopProgress.step (env : P2pmEnv) (self : LoopProgress) : LoopStage → Option LoopProgress
  | .begins turn =>
      if self.phase ≠ .between ∨ self.actor.terminated ∨ self.actor.follows turn = false then none
      else
        let polled := self.actor.polled turn
        some { self with actor := polled, phase := if polled.terminated then .between else .called }
  | .serves =>
      if self.phase ≠ .called then none
      else if self.actor.node.revents.server then
        match self.actor.node.serverInbox with
        | [] => some { self with phase := .skipped }
        | identity :: later =>
            match serveMessage env self.actor.node identity later with
            | .error _ => none
            | .ok (_, node) => some (self.moved env node .served)
      else some (self.moved env self.actor.node .served)
  | .times => if self.phase ≠ .served then none else some (self.moved env (stabilizeTimer env self.actor.node) .timed)
  | .follows =>
      if self.phase ≠ .timed then none
      else
        match successorSocketHandler env self.actor.node with
        | .error _ => none
        | .ok node => some (self.moved env node .followed)
  | .precedes =>
      if self.phase ≠ .followed then none
      else
        match predecessorSocketHandler env env.depth self.actor.node with
        | .error _ => none
        | .ok node => some (self.moved env node .preceded)
  | .returns =>
      if self.phase = .skipped then some { self with actor := afterLoop env self.actor, phase := .between }
      else if self.phase = .preceded then
        let node := { self.actor.node with serverTriggeredActions := .noXpv }
        some { self with actor := afterLoop env { self.actor with node := node }, phase := .between }
      else none

theorem process_timeo_after (env : P2pmEnv) (actor : P2pmdActor) :
    processTimeo env actor = (p2pmLoopServer env actor.node).map fun result => afterLoop env { actor with node := result.2 } := by
  unfold processTimeo
  cases p2pmLoopServer env actor.node with
  | error stop => rfl
  | ok result =>
      exact (apply_ite Except.ok _ _ _).symm

-- The action is in server_triggered_actions only.
def P2pm.Exposes (self : P2pm) (deferred : Deferred) : Prop :=
  self.serverTriggeredActions = deferred.action ∧ self.predecessorTriggeredActions ≠ deferred.pinged

def P2pm.TimerDue (env : P2pmEnv) (self : P2pm) : Prop :=
  self.currentStatus = .member ∧ env.clock self.ticks - self.lastStabilizeTime > env.stabilizeInterval

-- The reply to STABILIZE_REQ that is to be read has a list with it.
def P2pm.SlistAcked (env : P2pmEnv) (self : P2pm) : Prop :=
  ∃ part later word skipped r list more, self.successorSocket.inbox = part :: later ∧ partWord env.host part = .ok word ∧
    skipPongs env.host word later = .ok (P2pmReptypes.stabilizeAck.code, skipped) ∧
    recvWord env.host skipped = .ok (some r, list :: more) ∧ 1 ≤ r ∧ r ≤ self.nodeList.rMax

def P2pm.SuccessorOverdue (env : P2pmEnv) (self : P2pm) : Prop :=
  (env.clock self.ticks - self.successorLastpollTime ≥ env.wait.toNat ∧ self.successorSocketExpectedActions ≠ .noXpv) ∨
    self.successorSocketExpectedActions = .stabilizeFailure

-- What comes in from the successor, or fails to, sets the action.
def P2pm.SuccessorSets (env : P2pmEnv) (self : P2pm) : Deferred → Prop
  | .findHead =>
      self.revents.successor = false ∧ self.SuccessorOverdue env ∧
        (self.successorSocketExpectedActions = .pingAndStabilizeReq2 ∨ self.successorSocketExpectedActions = .stabilizeFailure) ∧
        (Pieces.piece maxIdLen 1 self.nodeList.successorList).head? = some 0
  | .replicate => self.revents.successor = true ∧ self.successorSocketExpectedActions = .stabilizeAck ∧ self.SlistAcked env
  | .relay => False

def P2pm.PredecessorOverdue (env : P2pmEnv) (self : P2pm) : Prop :=
  self.revents.predecessor = false ∧ env.clock self.ticks - self.predecessorLastpollTime > env.wait.toNat ∧
    self.predecessorSocketExpectedActions ≠ .noXpv

-- The predecessor has nothing to say and has not been silent for too long.
def P2pm.PredecessorIdle (env : P2pmEnv) (self : P2pm) : Prop :=
  self.revents.predecessor = false ∧ ¬ self.PredecessorOverdue env ∧
    ¬ (env.clock (self.ticks + 1) - self.predecessorLastpollTime > env.wait.toNat ∧ self.predecessorSocketExpectedActions = .noXpv)

def LoopProgress.Keeps (env : P2pmEnv) (self : LoopProgress) : LoopStage → Prop
  | .times => ∀ deferred, self.actor.node.Exposes deferred → ¬ self.actor.node.TimerDue env
  | .follows =>
      ∀ deferred, self.actor.node.Exposes deferred → ∀ other, self.actor.node.SuccessorSets env other → other = deferred
  | .precedes =>
      (∀ deferred, self.actor.node.Exposes deferred →
        (self.actor.node.PredecessorIdle env ∧ ∀ other : Deferred, self.actor.node.predecessorTriggeredActions ≠ other.pinged) ∨
          (self.actor.node.PredecessorOverdue env ∧ deferred ≠ .findHead ∧
            self.actor.node.predecessorSocketExpectedActions = deferred.action)) ∧
      (self.actor.node.PredecessorOverdue env →
        self.actor.node.predecessorSocketExpectedActions = .predRepPing3 ∨ self.actor.node.predecessorSocketExpectedActions = .predFailure →
        self.actor.node.currentStatus = .member ∧ self.actor.node.predecessorTriggeredActions = Deferred.findHead.pinged)
  | _ => True

def LoopPhase.settled : LoopPhase → Bool
  | .between | .called | .skipped => true
  | _ => false

-- Outside the handlers an action that is owed waits for the reply to its ping; where one waits, no message is on its way.
structure LoopProgress.Holds (progress : LoopProgress) : Prop where
  recorded : ∀ deferred, progress.owed deferred = true →
    (progress.phase.settled = false ∧ progress.phase ≠ .preceded ∧ progress.actor.node.serverTriggeredActions = deferred.action) ∨
      progress.actor.node.predecessorTriggeredActions = deferred.pinged
  unset : progress.phase.settled = true → progress.actor.node.serverTriggeredActions = .noXpv
  alone : ∀ deferred : Deferred, deferred ≠ .findHead → progress.actor.node.predecessorSocketExpectedActions = deferred.action →
    ∀ other : Deferred, progress.actor.node.predecessorTriggeredActions ≠ other.pinged

theorem holds_records (progress : LoopProgress) (holds : progress.Holds) (deferred : Deferred) (owed : progress.owed deferred = true) :
    progress.actor.node.Records deferred := by
  rcases holds.recorded deferred owed with ⟨_, _, set⟩ | waits
  · exact Or.inl set
  · exact Or.inr (Or.inl waits)

theorem action_injective (a b : Deferred) (same : a.action = b.action) : a = b := by
  cases a <;> cases b <;> first | rfl | cases same

theorem pinged_injective (a b : Deferred) (same : a.pinged = b.pinged) : a = b := by
  cases a <;> cases b <;> first | rfl | cases same

structure SameRegisters (old new : P2pm) : Prop where
  server : new.serverTriggeredActions = old.serverTriggeredActions
  triggered : new.predecessorTriggeredActions = old.predecessorTriggeredActions
  expected : new.predecessorSocketExpectedActions = old.predecessorSocketExpectedActions

theorem polled_registers (actor : P2pmdActor) (turn : ActorTurn) : SameRegisters actor.node (actor.polled turn).node := by
  cases turn with
  | interrupted => exact ⟨rfl, rfl, rfl⟩
  | repeats arrivals => exact ⟨rfl, rfl, rfl⟩
  | polls arrivals revents command =>
      simp only [P2pmdActor.polled]
      split
      · exact ⟨rfl, rfl, rfl⟩
      · split
        · cases command with
          | _ => exact ⟨rfl, rfl, rfl⟩
        · exact ⟨rfl, rfl, rfl⟩

theorem after_loop_registers (env : P2pmEnv) (actor : P2pmdActor) : SameRegisters actor.node (afterLoop env actor).node := by
  have passed : SameRegisters actor.node (passUp actor).node := by
    unfold passUp
    split
    · exact ⟨rfl, rfl, rfl⟩
    · exact ⟨rfl, rfl, rfl⟩
  unfold afterLoop
  dsimp only [zclockMono]
  split
  · exact ⟨passed.server, passed.triggered, passed.expected⟩
  · exact ⟨passed.server, passed.triggered, passed.expected⟩

theorem owed_cases (env : P2pmEnv) (self : LoopProgress) (node : P2pm) (phase : LoopPhase) (deferred : Deferred)
    (owed : (self.moved env node phase).owed deferred = true) :
    (self.owed deferred = true ∨ node.serverTriggeredActions = deferred.action ∨ node.predecessorTriggeredActions = deferred.pinged) ∧
      messageSent env self.actor.node node deferred = false := by
  simp only [LoopProgress.moved, Bool.and_eq_true, Bool.or_eq_true, decide_eq_true_eq, Bool.not_eq_true'] at owed
  exact owed

theorem action_set (deferred : Deferred) : deferred.action ≠ .noXpv := by
  cases deferred <;> decide

theorem kept_holds (env : P2pmEnv) (self : LoopProgress) (node : P2pm) (phase : LoopPhase) (holds : self.Holds)
    (open_ : phase.settled = false) (early : phase ≠ .preceded)
    (triggered : node.predecessorTriggeredActions = self.actor.node.predecessorTriggeredActions)
    (expected : node.predecessorSocketExpectedActions = self.actor.node.predecessorSocketExpectedActions)
    (exposed : ∀ deferred, self.actor.node.Exposes deferred → node.serverTriggeredActions = deferred.action) :
    (self.moved env node phase).Holds where
  recorded := by
    intro deferred owed
    obtain ⟨why, _⟩ := owed_cases env self node phase deferred owed
    have stays : self.actor.node.serverTriggeredActions = deferred.action →
        (phase.settled = false ∧ phase ≠ .preceded ∧ node.serverTriggeredActions = deferred.action) ∨
          node.predecessorTriggeredActions = deferred.pinged := by
      intro set
      by_cases waits : self.actor.node.predecessorTriggeredActions = deferred.pinged
      · exact Or.inr (triggered.trans waits)
      · exact Or.inl ⟨open_, early, exposed deferred ⟨set, waits⟩⟩
    rcases why with before | set | waits
    · rcases holds.recorded deferred before with ⟨_, _, set⟩ | waits
      · exact stays set
      · exact Or.inr (triggered.trans waits)
    · exact Or.inl ⟨open_, early, set⟩
    · exact Or.inr waits
  unset := fun settled => by
    have settled : phase.settled = true := settled
    rw [open_] at settled
    cases settled
  alone := by
    intro deferred other is
    rw [LoopProgress.moved] at is ⊢
    dsimp only at is ⊢
    rw [expected] at is
    rw [triggered]
    exact holds.alone deferred other is

theorem timer_keeps (env : P2pmEnv) (self : P2pm) (deferred : Deferred) (set : self.serverTriggeredActions = deferred.action)
    (early : ¬ self.TimerDue env) : (stabilizeTimer env self).serverTriggeredActions = deferred.action := by
  unfold stabilizeTimer
  split
  · rename_i member
    dsimp only [zclockMono]
    split
    · rename_i due
      exact absurd ⟨member, due⟩ early
    · exact set
  · exact set

theorem stabilize_acked_sets (env : P2pmEnv) (self next : P2pm) (sRecv : UInt32) (done : stabilizeAcked env self sRecv = .ok next) :
    next.serverTriggeredActions = self.serverTriggeredActions ∨
      (next.serverTriggeredActions = .replicateBackwards ∧ ∃ skipped r list more,
        skipPongs env.host sRecv self.successorSocket.inbox = .ok (P2pmReptypes.stabilizeAck.code, skipped) ∧
        recvWord env.host skipped = .ok (some r, list :: more) ∧ 1 ≤ r ∧ r ≤ self.nodeList.rMax) := by
  obtain ⟨⟨word, inbox⟩, pongs, done⟩ := bind_ok _ _ _ done
  dsimp only at done
  split at done
  · cases done
    exact Or.inl rfl
  · rename_i acked
    obtain ⟨⟨r, after⟩, received, done⟩ := bind_ok _ _ _ done
    cases r with
    | none =>
        cases done
        exact Or.inl rfl
    | some r =>
        dsimp only at done
        split at done
        · cases done
          exact Or.inl rfl
        · rename_i counted
          cases after with
          | nil =>
              cases done
              exact Or.inl rfl
          | cons part later =>
              obtain ⟨copied, _, done⟩ := bind_ok _ _ _ done
              cases done
              rw [Classical.not_not.mp acked] at pongs
              refine Or.inr ⟨rfl, inbox, r, part, later, pongs, received, ?_, ?_⟩
              · exact UInt32.not_lt.mp fun less => counted (Or.inl less)
              · exact UInt32.not_lt.mp fun more => counted (Or.inr more)

theorem successor_readable_sets (env : P2pmEnv) (self next : P2pm) (readable : self.revents.successor = true)
    (done : successorReadable env self = .ok next) :
    next.serverTriggeredActions = self.serverTriggeredActions ∨
      (next.serverTriggeredActions = .replicateBackwards ∧ self.SuccessorSets env .replicate) := by
  have pinged : ∀ (before : P2pm) (sRecv : UInt32),
      (stabilizePinged env before sRecv).serverTriggeredActions = before.serverTriggeredActions := by
    intro before sRecv
    unfold stabilizePinged
    split <;> rfl
  unfold successorReadable at done
  dsimp only [zclockMono] at done
  cases inbox : self.successorSocket.inbox with
  | nil =>
      rw [inbox] at done
      cases done
  | cons part later =>
      rw [inbox] at done
      obtain ⟨sRecv, word, done⟩ := bind_ok _ _ _ done
      split at done
      · cases done
        exact Or.inl (pinged _ sRecv)
      · cases done
        exact Or.inl (pinged _ sRecv)
      · cases done
        exact Or.inl (pinged _ sRecv)
      · rename_i expected
        rcases stabilize_acked_sets env _ next sRecv done with same | ⟨set, skipped, r, list, more, pongs, received, least, most⟩
        · exact Or.inl same
        · exact Or.inr ⟨set, readable, expected, part, later, sRecv, skipped, r, list, more, inbox, word, pongs, received, least, most⟩
      · cases done
        exact Or.inl rfl

theorem fail_over_sets (env : P2pmEnv) (self next : P2pm) (done : failOver env self = .ok next) :
    next.serverTriggeredActions = self.serverTriggeredActions ∨
      (next.serverTriggeredActions = .stabilizeFindHead ∧ (Pieces.piece maxIdLen 1 self.nodeList.successorList).head? = some 0) := by
  obtain ⟨address, read, done⟩ := bind_ok _ _ _ done
  obtain ⟨_, block⟩ := read_slot_block _ address 1 read
  split at done
  · obtain ⟨list, _, done⟩ := bind_ok _ _ _ done
    obtain ⟨fixed, _, done⟩ := bind_ok _ _ _ done
    obtain ⟨first, _, done⟩ := bind_ok _ _ _ done
    split at done
    · cases done
    · cases done
      exact Or.inl rfl
  · rename_i empty
    cases done
    refine Or.inr ⟨rfl, ?_⟩
    rw [← block]
    exact Classical.not_not.mp empty

theorem successor_event_sets (env : P2pmEnv) (self next : P2pm) (done : successorEvent env self = .ok next) :
    next.serverTriggeredActions = self.serverTriggeredActions ∨
      (∃ deferred, self.SuccessorSets env deferred ∧ next.serverTriggeredActions = deferred.action) ∨
      self.serverTriggeredActions = .triggerStabilize := by
  unfold successorEvent at done
  split at done
  · rename_i readable
    rcases successor_readable_sets env self next readable done with same | ⟨set, sets⟩
    · exact Or.inl same
    · exact Or.inr (Or.inl ⟨.replicate, sets, set⟩)
  · rename_i silent
    have silent : self.revents.successor = false := by simpa using silent
    dsimp only [zclockMono] at done
    split at done
    · rename_i overdue
      unfold successorTimeout at done
      dsimp only [zclockMono] at done
      have ended : ∀ before : P2pm, failOver env before = .ok next → before.serverTriggeredActions = self.serverTriggeredActions →
          before.nodeList = self.nodeList → (self.successorSocketExpectedActions = .pingAndStabilizeReq2 ∨
            self.successorSocketExpectedActions = .stabilizeFailure) →
          next.serverTriggeredActions = self.serverTriggeredActions ∨
            (∃ deferred, self.SuccessorSets env deferred ∧ next.serverTriggeredActions = deferred.action) ∨
            self.serverTriggeredActions = .triggerStabilize := by
        intro before done same list expected
        rcases fail_over_sets env before next done with kept | ⟨set, empty⟩
        · exact Or.inl (kept.trans same)
        · rw [list] at empty
          exact Or.inr (Or.inl ⟨.findHead, ⟨silent, overdue, expected, empty⟩, set⟩)
      split at done
      · cases done
        exact Or.inl rfl
      · cases done
        exact Or.inl rfl
      · rename_i expected
        exact ended _ done rfl rfl (Or.inl expected)
      · rename_i expected
        exact ended _ done rfl rfl (Or.inr expected)
      · cases done
        exact Or.inl rfl
    · split at done
      · rename_i triggered
        exact Or.inr (Or.inr triggered)
      · split at done
        · cases done
          exact Or.inl rfl
        · cases done
          exact Or.inl rfl

theorem pinged_action (set : P2pmExpectedActions) :
    (∃ deferred : Deferred, set = deferred.action ∧ set.pinged = some deferred.pinged) ∨
      ((∀ deferred : Deferred, set ≠ deferred.action) ∧ set.pinged = none) := by
  cases set with
  | stabilizeFindHead => exact Or.inl ⟨.findHead, rfl, rfl⟩
  | replicateBackwards => exact Or.inl ⟨.replicate, rfl, rfl⟩
  | relayBackwards => exact Or.inl ⟨.relay, rfl, rfl⟩
  | _ => exact Or.inr ⟨fun deferred => by cases deferred <;> decide, rfl⟩

theorem idle_pings (env : P2pmEnv) (self : P2pm) (deferred : Deferred) (set : self.serverTriggeredActions = deferred.action)
    (idle : ¬ (env.clock self.ticks - self.predecessorLastpollTime > env.wait.toNat ∧ self.predecessorSocketExpectedActions = .noXpv)) :
    (predecessorIdle env self).serverTriggeredActions = .noXpv ∧
      (predecessorIdle env self).predecessorTriggeredActions = deferred.pinged ∧
      (predecessorIdle env self).predecessorSocketExpectedActions = .predRepPing1 := by
  unfold predecessorIdle
  dsimp only [zclockMono]
  rw [if_neg idle]
  rw [set]
  cases deferred with
  | findHead => exact ⟨rfl, rfl, rfl⟩
  | replicate => exact ⟨rfl, rfl, rfl⟩
  | relay => exact ⟨rfl, rfl, rfl⟩

theorem resend_pings (env : P2pmEnv) (depth : Nat) (self next : P2pm) (deferred : Deferred) (other : deferred ≠ .findHead)
    (done : predecessorSocketHandler env depth self = .ok next) (silent : self.revents.predecessor = false)
    (set : self.serverTriggeredActions = deferred.action) (expected : self.predecessorSocketExpectedActions = deferred.action) :
    next.serverTriggeredActions = .noXpv ∧ next.predecessorTriggeredActions = deferred.pinged ∧
      next.predecessorSocketExpectedActions = .predRepPing1 := by
  induction depth generalizing self with
  | zero => cases done
  | succ depth ih =>
      unfold predecessorSocketHandler at done
      rw [if_neg (by simp [silent])] at done
      dsimp only [zclockMono] at done
      have waits : deferred.action ≠ .noXpv := action_set deferred
      split at done
      · cases deferred with
        | findHead => exact absurd rfl other
        | replicate =>
            simp only [expected, Deferred.action] at done
            have rest := ih _ done silent rfl rfl
            exact rest
        | relay =>
            simp only [expected, Deferred.action] at done
            have rest := ih _ done silent rfl rfl
            exact rest
      · cases done
        exact idle_pings env _ deferred set fun early => waits (expected.symm.trans early.2)

theorem answered_sends (env : P2pmEnv) (self next : P2pm) (deferred : Deferred)
    (waits : self.predecessorTriggeredActions = deferred.pinged) (done : predecessorAnswered env self = .ok next) :
    messageSent env self next deferred = true ∧ next.predecessorTriggeredActions = .noXpv := by
  have sent : ∀ rest : List MsgPart, (self.predecessorSent ++ rest).drop self.predecessorSent.length = rest := by
    intro rest
    exact List.drop_left
  unfold predecessorAnswered at done
  cases deferred with
  | findHead =>
      simp only [waits, Deferred.pinged] at done
      cases done
      refine ⟨?_, rfl⟩
      simp [messageSent, waits, Deferred.pinged, Deferred.code, predecessorSend, sent, wordPart]
  | replicate =>
      simp only [waits, Deferred.pinged] at done
      obtain ⟨told, slist, done⟩ := bind_ok _ _ _ done
      obtain ⟨list, _, same⟩ := send_slist_sent env self told _ slist
      cases done
      rw [same]
      refine ⟨?_, rfl⟩
      simp [messageSent, waits, Deferred.pinged, Deferred.code, predecessorSend, sent, wordPart]
  | relay =>
      simp only [waits, Deferred.pinged] at done
      obtain ⟨told, slist, done⟩ := bind_ok _ _ _ done
      obtain ⟨list, _, same⟩ := send_slist_sent env self told _ slist
      cases done
      rw [same]
      refine ⟨?_, rfl⟩
      simp [messageSent, waits, Deferred.pinged, Deferred.code, predecessorSend, sent, wordPart]

theorem answered_clears (env : P2pmEnv) (self next : P2pm) (done : predecessorAnswered env self = .ok next) :
    next.predecessorTriggeredActions = .noXpv ∧
      (next.serverTriggeredActions = self.serverTriggeredActions ∨ next.serverTriggeredActions = .noXpv) := by
  unfold predecessorAnswered at done
  split at done
  · cases done
    exact ⟨rfl, Or.inl rfl⟩
  · obtain ⟨told, slist, done⟩ := bind_ok _ _ _ done
    obtain ⟨list, _, same⟩ := send_slist_sent env self told _ slist
    cases done
    rw [same]
    exact ⟨rfl, Or.inl rfl⟩
  · obtain ⟨told, slist, done⟩ := bind_ok _ _ _ done
    cases done
    exact ⟨rfl, Or.inr rfl⟩
  · cases done
    exact ⟨rfl, Or.inl rfl⟩

-- What the handler of the predecessor comes to, register by register.
inductive Preceded (env : P2pmEnv) (old new : P2pm) : Prop where
  | stays (server : new.serverTriggeredActions = old.serverTriggeredActions ∨ new.serverTriggeredActions = .noXpv)
      (triggered : new.predecessorTriggeredActions = old.predecessorTriggeredActions)
      (expected : new.predecessorSocketExpectedActions = old.predecessorSocketExpectedActions ∨
        ∀ deferred : Deferred, new.predecessorSocketExpectedActions ≠ deferred.action)
      (hidden : ¬ old.PredecessorIdle env ∨ ∀ deferred : Deferred, old.serverTriggeredActions ≠ deferred.action)
      (fresh : ¬ old.PredecessorOverdue env ∨ ∀ deferred : Deferred, deferred ≠ .findHead →
        old.predecessorSocketExpectedActions ≠ deferred.action)
  | answers (triggered : new.predecessorTriggeredActions = .noXpv) (readable : old.revents.predecessor = true)
      (server : new.serverTriggeredActions = old.serverTriggeredActions ∨ new.serverTriggeredActions = .noXpv)
      (sends : ∀ deferred : Deferred, old.predecessorTriggeredActions = deferred.pinged → messageSent env old new deferred = true)
  | pings (deferred : Deferred) (set : old.serverTriggeredActions = deferred.action) (idle : old.PredecessorIdle env)
      (server : new.serverTriggeredActions = .noXpv) (triggered : new.predecessorTriggeredActions = deferred.pinged)
      (expected : new.predecessorSocketExpectedActions = .predRepPing1)
  | resends (deferred : Deferred) (other : deferred ≠ .findHead) (overdue : old.PredecessorOverdue env)
      (set : old.predecessorSocketExpectedActions = deferred.action)
      (server : new.serverTriggeredActions = .noXpv) (triggered : new.predecessorTriggeredActions = deferred.pinged)
      (expected : new.predecessorSocketExpectedActions = .predRepPing1)
  | fails (overdue : old.PredecessorOverdue env)
      (last : old.predecessorSocketExpectedActions = .predRepPing3 ∨ old.predecessorSocketExpectedActions = .predFailure)
      (member : old.currentStatus = .member → new.serverTriggeredActions = .stabilizeFindHead ∧
        new.predecessorTriggeredActions = old.predecessorTriggeredActions ∧ new.predecessorSocketExpectedActions = .noXpv)

theorem readable_preceded (env : P2pmEnv) (self next : P2pm) (readable : self.revents.predecessor = true)
    (done : predecessorReadable env self = .ok next) : Preceded env self next := by
  have busy : ¬ self.PredecessorIdle env := fun idle => by
    have silent := idle.1
    rw [readable] at silent
    cases silent
  have heard : ¬ self.PredecessorOverdue env := fun overdue => by
    have silent := overdue.1
    rw [readable] at silent
    cases silent
  have backwards : ∀ before : P2pm, before.predecessorTriggeredActions = self.predecessorTriggeredActions →
      Preceded env self (backwardsDone before) := by
    intro before same
    exact Preceded.stays (Or.inr rfl) same (Or.inr fun deferred => (action_set deferred).symm) (Or.inl busy) (Or.inl heard)
  have answers : ∀ before : P2pm, predecessorAnswered env before = .ok next →
      before.predecessorTriggeredActions = self.predecessorTriggeredActions → before.predecessorSent = self.predecessorSent →
      before.serverTriggeredActions = self.serverTriggeredActions → Preceded env self next := by
    intro before done same sent server
    obtain ⟨triggered, kept⟩ := answered_clears env before next done
    rw [server] at kept
    refine Preceded.answers triggered readable kept fun deferred waits => ?_
    have message := (answered_sends env before next deferred (same.trans waits) done).1
    simp only [messageSent, same, sent] at message
    exact message
  obtain ⟨⟨word, inbox⟩, _, done⟩ := bind_ok _ _ _ done
  dsimp only [zclockMono] at done
  split at done
  · split at done
    · exact answers _ done rfl rfl rfl
    · cases done
      exact backwards _ rfl
  · split at done
    · exact answers _ done rfl rfl rfl
    · cases done
      exact backwards _ rfl
  · split at done
    · exact answers _ done rfl rfl rfl
    · cases done
      exact backwards _ rfl
  · cases done
    exact backwards _ rfl
  · cases done
    exact backwards _ rfl
  · cases done
    exact Preceded.stays (Or.inl rfl) rfl (Or.inl rfl) (Or.inl busy) (Or.inl heard)

theorem idle_preceded (env : P2pmEnv) (self before : P2pm) (silent : self.revents.predecessor = false)
    (fresh : ¬ self.PredecessorOverdue env) (read : before = { self with ticks := self.ticks + 1 }) :
    Preceded env self (predecessorIdle env before) := by
  subst read
  by_cases early : env.clock (self.ticks + 1) - self.predecessorLastpollTime > env.wait.toNat ∧
      self.predecessorSocketExpectedActions = .noXpv
  · have result : predecessorIdle env { self with ticks := self.ticks + 1 } =
        { self with ticks := self.ticks + 3, predecessorLastpollTime := env.clock (self.ticks + 2) } := by
      unfold predecessorIdle
      dsimp only [zclockMono]
      rw [if_pos early]
    rw [result]
    exact Preceded.stays (Or.inl rfl) rfl (Or.inl rfl) (Or.inl fun idle => idle.2.2 early) (Or.inl fresh)
  · rcases pinged_action self.serverTriggeredActions with ⟨deferred, set, _⟩ | ⟨unset, none_⟩
    · obtain ⟨server, triggered, expected⟩ := idle_pings env { self with ticks := self.ticks + 1 } deferred set early
      exact Preceded.pings deferred set ⟨silent, fresh, early⟩ server triggered expected
    · have result : predecessorIdle env { self with ticks := self.ticks + 1 } = { self with ticks := self.ticks + 2 } := by
        unfold predecessorIdle
        dsimp only [zclockMono]
        rw [if_neg early, none_]
      rw [result]
      exact Preceded.stays (Or.inl rfl) rfl (Or.inl rfl) (Or.inr unset) (Or.inl fresh)

theorem predecessor_preceded (env : P2pmEnv) (depth : Nat) (self next : P2pm)
    (done : predecessorSocketHandler env depth self = .ok next) : Preceded env self next := by
  cases depth with
  | zero => cases done
  | succ depth =>
      unfold predecessorSocketHandler at done
      by_cases readable : self.revents.predecessor = true
      · rw [if_pos readable] at done
        exact readable_preceded env self next readable done
      · rw [if_neg readable] at done
        have silent : self.revents.predecessor = false := by simpa using readable
        dsimp only [zclockMono] at done
        split at done
        · rename_i late
          have overdue : self.PredecessorOverdue env := ⟨silent, late.1, late.2⟩
          have busy : ¬ self.PredecessorIdle env := fun idle => idle.2.1 overdue
          have waits : ∀ (expected : P2pmExpectedActions), self.predecessorSocketExpectedActions = expected →
              (∀ deferred : Deferred, deferred ≠ .findHead → expected ≠ deferred.action) →
              ∀ deferred : Deferred, deferred ≠ .findHead → self.predecessorSocketExpectedActions ≠ deferred.action := by
            intro expected same none_
            rw [same]
            exact none_
          split at done
          · rename_i expected
            cases done
            exact Preceded.stays (Or.inl rfl) rfl (Or.inr fun deferred => by cases deferred <;> simp [pingPredecessor, Deferred.action])
              (Or.inl busy) (Or.inr (waits _ expected fun deferred _ => by cases deferred <;> simp [Deferred.action]))
          · rename_i expected
            cases done
            exact Preceded.stays (Or.inl rfl) rfl (Or.inr fun deferred => by cases deferred <;> simp [pingPredecessor, Deferred.action])
              (Or.inl busy) (Or.inr (waits _ expected fun deferred _ => by cases deferred <;> simp [Deferred.action]))
          · rename_i expected
            refine Preceded.fails overdue (Or.inl expected) fun member => ?_
            unfold predecessorFailed at done
            rw [if_pos member] at done
            cases done
            exact ⟨rfl, rfl, rfl⟩
          · rename_i expected
            refine Preceded.fails overdue (Or.inr expected) fun member => ?_
            unfold predecessorFailed at done
            rw [if_pos member] at done
            cases done
            exact ⟨rfl, rfl, rfl⟩
          · rename_i expected
            obtain ⟨server, triggered, pinged⟩ := resend_pings env depth _ next .relay (by decide) done silent rfl expected
            exact Preceded.resends .relay (by decide) overdue expected server triggered pinged
          · rename_i expected
            obtain ⟨server, triggered, pinged⟩ := resend_pings env depth _ next .replicate (by decide) done silent rfl expected
            exact Preceded.resends .replicate (by decide) overdue expected server triggered pinged
          · cases done
            refine Preceded.stays (Or.inl rfl) rfl (Or.inl rfl) (Or.inl busy) (Or.inr fun deferred other => ?_)
            cases deferred with
            | findHead => exact absurd rfl other
            | replicate => assumption
            | relay => assumption
        · rename_i early
          cases done
          exact idle_preceded env self _ silent (fun overdue => early ⟨overdue.2.1, overdue.2.2⟩) rfl

theorem pinged_set (deferred : Deferred) : deferred.pinged ≠ .noXpv := by
  cases deferred <;> decide

theorem precedes_holds (env : P2pmEnv) (self : LoopProgress) (node : P2pm) (holds : self.Holds)
    (keeps : self.Keeps env .precedes) (preceded : Preceded env self.actor.node node) : (self.moved env node .preceded).Holds := by
  obtain ⟨exposed, failing⟩ := keeps
  -- an action that is set waits already, or the predecessor takes it now
  have owes : ∀ deferred, (self.moved env node .preceded).owed deferred = true →
      (self.actor.node.serverTriggeredActions = deferred.action ∨ self.actor.node.predecessorTriggeredActions = deferred.pinged) ∨
        node.serverTriggeredActions = deferred.action ∨ node.predecessorTriggeredActions = deferred.pinged := by
    intro deferred owed
    rcases (owed_cases env self node .preceded deferred owed).1 with before | now
    · rcases holds.recorded deferred before with ⟨_, _, set⟩ | waits
      · exact Or.inl (Or.inl set)
      · exact Or.inl (Or.inr waits)
    · exact Or.inr now
  have assemble : (∀ deferred, (self.moved env node .preceded).owed deferred = true → node.predecessorTriggeredActions = deferred.pinged) →
      (∀ deferred : Deferred, deferred ≠ .findHead → node.predecessorSocketExpectedActions = deferred.action →
        ∀ other : Deferred, node.predecessorTriggeredActions ≠ other.pinged) → (self.moved env node .preceded).Holds := by
    intro recorded alone
    refine ⟨fun deferred owed => Or.inr (recorded deferred owed), fun settled => ?_, alone⟩
    cases settled
  have unset : ∀ deferred : Deferred, node.serverTriggeredActions = .noXpv → node.serverTriggeredActions ≠ deferred.action :=
    fun deferred same is => action_set deferred (is.symm.trans same)
  have pinging : node.predecessorSocketExpectedActions = .predRepPing1 → ∀ deferred : Deferred, deferred ≠ .findHead →
      node.predecessorSocketExpectedActions = deferred.action → ∀ other : Deferred, node.predecessorTriggeredActions ≠ other.pinged := by
    intro expected deferred _ is
    rw [expected] at is
    cases deferred <;> cases is
  cases preceded with
  | stays server triggered expected hidden fresh =>
      have waits : ∀ deferred : Deferred, self.actor.node.serverTriggeredActions = deferred.action →
          self.actor.node.predecessorTriggeredActions = deferred.pinged := by
        intro deferred set
        by_contra other
        rcases exposed deferred ⟨set, other⟩ with ⟨idle, _⟩ | ⟨overdue, kind, is⟩
        · exact hidden.elim (fun busy => busy idle) fun none_ => none_ deferred set
        · exact fresh.elim (fun heard => heard overdue) fun none_ => none_ deferred kind is
      refine assemble (fun deferred owed => ?_) fun deferred kind is other => ?_
      · rcases owes deferred owed with (set | waiting) | set | waiting
        · exact triggered.trans (waits deferred set)
        · exact triggered.trans waiting
        · have before := server.elim (fun same => same.symm.trans set) fun cleared => absurd set (unset deferred cleared)
          exact triggered.trans (waits deferred before)
        · exact waiting
      · rw [triggered]
        rcases expected with same | none_
        · exact holds.alone deferred kind (same.symm.trans is) other
        · exact absurd is (none_ deferred)
  | answers triggered readable server sends =>
      have waits : ∀ deferred : Deferred, self.actor.node.serverTriggeredActions = deferred.action →
          self.actor.node.predecessorTriggeredActions = deferred.pinged := by
        intro deferred set
        by_contra other
        have silent : self.actor.node.revents.predecessor = false := by
          rcases exposed deferred ⟨set, other⟩ with ⟨idle, _⟩ | ⟨overdue, _, _⟩
          · exact idle.1
          · exact overdue.1
        rw [readable] at silent
        cases silent
      have nothing : ∀ deferred : Deferred, node.predecessorTriggeredActions ≠ deferred.pinged :=
        fun deferred is => pinged_set deferred (is.symm.trans triggered)
      refine assemble (fun deferred owed => ?_) fun deferred _ _ => nothing
      have unsent := (owed_cases env self node .preceded deferred owed).2
      have sent : self.actor.node.predecessorTriggeredActions ≠ deferred.pinged := by
        intro waiting
        rw [sends deferred waiting] at unsent
        cases unsent
      rcases owes deferred owed with (set | waiting) | set | waiting
      · exact absurd (waits deferred set) sent
      · exact absurd waiting sent
      · have before := server.elim (fun same => same.symm.trans set) fun cleared => absurd set (unset deferred cleared)
        exact absurd (waits deferred before) sent
      · exact waiting
  | pings deferred set idle server triggered expected =>
      -- what waits is the same action
      have same : ∀ other : Deferred, self.actor.node.predecessorTriggeredActions = other.pinged → other = deferred := by
        intro other waiting
        by_contra different
        have open_ : self.actor.node.predecessorTriggeredActions ≠ deferred.pinged :=
          fun is => different (pinged_injective other deferred (waiting.symm.trans is))
        rcases exposed deferred ⟨set, open_⟩ with ⟨_, free⟩ | ⟨overdue, _, _⟩
        · exact free other waiting
        · exact idle.2.1 overdue
      refine assemble (fun other owed => ?_) (pinging expected)
      rcases owes other owed with (was | waiting) | now | waiting
      · rw [action_injective other deferred (was.symm.trans set)]
        exact triggered
      · rw [same other waiting]
        exact triggered
      · exact absurd now (unset other server)
      · exact waiting
  | resends deferred kind overdue set server triggered expected =>
      have free := holds.alone deferred kind set
      refine assemble (fun other owed => ?_) (pinging expected)
      rcases owes other owed with (was | waiting) | now | waiting
      · rcases exposed other ⟨was, free other⟩ with ⟨idle, _⟩ | ⟨_, _, is⟩
        · exact absurd overdue idle.2.1
        · rw [action_injective other deferred (is.symm.trans set)]
          exact triggered
      · exact absurd waiting (free other)
      · exact absurd now (unset other server)
      · exact waiting
  | fails overdue last member =>
      obtain ⟨status, waiting⟩ := failing overdue last
      obtain ⟨server, triggered, expected⟩ := member status
      have ping : ∀ other : Deferred, self.actor.node.predecessorSocketExpectedActions ≠ other.action := by
        intro other is
        rcases last with last | last
        · rw [last] at is
          cases other <;> cases is
        · rw [last] at is
          cases other <;> cases is
      refine assemble (fun other owed => ?_) fun other kind is => ?_
      · rcases owes other owed with (was | found) | now | found
        · by_contra missing
          rcases exposed other ⟨was, fun is => missing (triggered.trans is)⟩ with ⟨idle, _⟩ | ⟨_, _, is⟩
          · exact idle.2.1 overdue
          · exact ping other is
        · exact triggered.trans found
        · rw [← action_injective .findHead other (server.symm.trans now)]
          exact triggered.trans waiting
        · exact found
      · exact absurd (expected.symm.trans is) (action_set other).symm

theorem settled_holds (self : LoopProgress) (actor : P2pmdActor) (phase : LoopPhase) (holds : self.Holds)
    (recorded : ∀ deferred, self.owed deferred = true → self.actor.node.predecessorTriggeredActions = deferred.pinged)
    (unset : actor.node.serverTriggeredActions = .noXpv)
    (triggered : actor.node.predecessorTriggeredActions = self.actor.node.predecessorTriggeredActions)
    (expected : actor.node.predecessorSocketExpectedActions = self.actor.node.predecessorSocketExpectedActions) :
    ({ actor := actor, phase := phase, owed := self.owed } : LoopProgress).Holds where
  recorded := fun deferred owed => Or.inr (triggered.trans (recorded deferred owed))
  unset := fun _ => unset
  alone := by
    intro deferred kind is other
    rw [triggered]
    exact holds.alone deferred kind (expected.symm.trans is) other

theorem settled_records (self : LoopProgress) (holds : self.Holds) (late : self.phase.settled = true ∨ self.phase = .preceded)
    (deferred : Deferred) (owed : self.owed deferred = true) : self.actor.node.predecessorTriggeredActions = deferred.pinged := by
  rcases holds.recorded deferred owed with ⟨open_, early, _⟩ | waits
  · rcases late with settled | preceded
    · rw [open_] at settled
      cases settled
    · exact absurd preceded early
  · exact waits

theorem serves_holds (env : P2pmEnv) (self : LoopProgress) (node : P2pm) (holds : self.Holds) (phase : self.phase = .called)
    (triggered : node.predecessorTriggeredActions = self.actor.node.predecessorTriggeredActions)
    (expected : node.predecessorSocketExpectedActions = self.actor.node.predecessorSocketExpectedActions) :
    (self.moved env node .served).Holds := by
  refine kept_holds env self node .served holds rfl (by decide) triggered expected fun deferred exposed => ?_
  have unset := holds.unset (by rw [phase]; rfl)
  exact absurd (exposed.1.symm.trans unset) (action_set deferred)

theorem stage_holds (env : P2pmEnv) (self next : LoopProgress) (stage : LoopStage) (holds : self.Holds) (keeps : self.Keeps env stage)
    (taken : self.step env stage = some next) : next.Holds := by
  cases stage with
  | begins turn =>
      simp only [LoopProgress.step] at taken
      split at taken
      · cases taken
      · rename_i allowed
        cases taken
        have between : self.phase = .between := by
          by_contra other
          exact allowed (Or.inl other)
        have settled : self.phase.settled = true := by
          rw [between]
          rfl
        obtain ⟨server, triggered, expected⟩ := polled_registers self.actor turn
        exact settled_holds self _ _ holds (settled_records self holds (Or.inl settled)) (server.trans (holds.unset settled))
          triggered expected
  | serves =>
      simp only [LoopProgress.step] at taken
      split at taken
      · cases taken
      · rename_i called
        have phase : self.phase = .called := Classical.not_not.mp called
        have settled : self.phase.settled = true := by
          rw [phase]
          rfl
        split at taken
        · split at taken
          · cases taken
            exact settled_holds self _ _ holds (settled_records self holds (Or.inl settled)) (holds.unset settled) rfl rfl
          · split at taken
            · cases taken
            · rename_i code node serve
              cases taken
              have frame := (serve_message_frame env _ node _ _ _ serve).same
              exact serves_holds env self node holds phase (congrArg (fun node => node.predecessorTriggeredActions) frame)
                (congrArg (fun node => node.predecessorSocketExpectedActions) frame)
        · cases taken
          exact serves_holds env self _ holds phase rfl rfl
  | times =>
      simp only [LoopProgress.step] at taken
      split at taken
      · cases taken
      · cases taken
        have frame := stabilize_timer_frame env self.actor.node
        refine kept_holds env self _ .timed holds rfl (by decide) (congrArg (fun node => node.predecessorTriggeredActions) frame)
          (congrArg (fun node => node.predecessorSocketExpectedActions) frame) fun deferred exposed => ?_
        exact timer_keeps env _ deferred exposed.1 (keeps deferred exposed)
  | follows =>
      simp only [LoopProgress.step] at taken
      split at taken
      · cases taken
      · split at taken
        · cases taken
        · rename_i node follow
          cases taken
          obtain ⟨middle, event, flush⟩ := successor_handler_parts env _ node follow
          have first := (successor_event_frame env _ middle event).same
          have second := flush_token_frame env middle node flush
          refine kept_holds env self node .followed holds rfl (by decide) ?_ ?_ fun deferred exposed => ?_
          · exact (congrArg (fun node => node.predecessorTriggeredActions) second).trans
              (congrArg (fun node => node.predecessorTriggeredActions) first)
          · exact (congrArg (fun node => node.predecessorSocketExpectedActions) second).trans
              (congrArg (fun node => node.predecessorSocketExpectedActions) first)
          · have kept : node.serverTriggeredActions = middle.serverTriggeredActions :=
              congrArg (fun node => node.serverTriggeredActions) second
            rw [kept]
            rcases successor_event_sets env _ middle event with same | ⟨other, sets, set⟩ | triggers
            · exact same.trans exposed.1
            · rw [set, keeps deferred exposed other sets]
            · have clash := exposed.1.symm.trans triggers
              cases deferred <;> cases clash
  | precedes =>
      simp only [LoopProgress.step] at taken
      split at taken
      · cases taken
      · split at taken
        · cases taken
        · rename_i node precede
          cases taken
          exact precedes_holds env self node holds keeps (predecessor_preceded env _ _ node precede)
  | returns =>
      simp only [LoopProgress.step] at taken
      split at taken
      · rename_i skipped
        cases taken
        have settled : self.phase.settled = true := by
          rw [skipped]
          rfl
        obtain ⟨server, triggered, expected⟩ := after_loop_registers env self.actor
        exact settled_holds self _ _ holds (settled_records self holds (Or.inl settled)) (server.trans (holds.unset settled))
          triggered expected
      · split at taken
        · rename_i preceded
          cases taken
          obtain ⟨server, triggered, expected⟩ := after_loop_registers env
            { self.actor with node := { self.actor.node with serverTriggeredActions := .noXpv } }
          exact settled_holds self _ _ holds (settled_records self holds (Or.inr preceded)) server triggered expected
        · cases taken

-- In a run in which every stage keeps to its guard, an action stays recorded until its message has been sent.
theorem deferred_actions_kept (env : P2pmEnv) (actor : P2pmdActor) (stages : List LoopStage) (final : LoopProgress) (deferred : Deferred)
    (server : actor.node.serverTriggeredActions = .noXpv) (triggered : actor.node.predecessorTriggeredActions = .noXpv)
    (keeps : Runs.Meets (LoopProgress.step env) (LoopProgress.Keeps env) (LoopProgress.start actor) stages)
    (ran : Runs.run (LoopProgress.step env) (LoopProgress.start actor) stages = some final) (owed : final.owed deferred = true) :
    final.actor.node.Records deferred := by
  have start : (LoopProgress.start actor).Holds := by
    refine ⟨fun _ owed => ?_, fun _ => server, fun _ _ _ other waits => ?_⟩
    · cases owed
    · exact pinged_set other (waits.symm.trans triggered)
  have holds := Runs.run_guarded_invariant (LoopProgress.step env) (LoopProgress.Keeps env) LoopProgress.Holds
    (fun self stage next holds keeps taken => stage_holds env self next stage holds keeps taken) _ final stages start keeps ran
  exact holds_records final holds deferred owed

-- A SYNC_SLIST with one address.
def sampleSyncTurn : ActorTurn :=
  .polls { server := [⟨[some 7], true⟩, wordPart .little P2pmReqtypes.syncSlist.code true, wordPart .little 3 true,
      wordPart .little 1 true, ⟨[some 84, some 0], false⟩], successor := [], predecessor := [] }
    { server := true, successor := false, predecessor := false, pipe := false } .terminate

-- The sample node, with the predecessor last heard of at the given time.
def sampleHeard (time : Int) : P2pmdActor where
  node := { sampleP2pm with predecessorLastpollTime := time }
  pipe := []
  again := false
  nextTimeo := 0
  terminated := false

def sampleStages : List LoopStage := [.begins sampleSyncTurn, .serves, .times, .follows, .precedes, .returns]

set_option maxRecDepth 20000 in
theorem deferred_actions_kept_sample : ∃ final : LoopProgress,
    Runs.run (LoopProgress.step sampleP2pmEnv) (LoopProgress.start (sampleHeard 0)) sampleStages = some final ∧
      final.owed .relay = true ∧ final.actor.node.Records .relay := by
  obtain ⟨called, begins, served, serves, timer, timed, times, successor, followed, follows, predecessor, final, rest, owed⟩ :
      ∃ called, (LoopProgress.start (sampleHeard 0)).step sampleP2pmEnv (.begins sampleSyncTurn) = some called ∧
      ∃ served, called.step sampleP2pmEnv .serves = some served ∧
        (served.actor.node.ticks = 0 ∧ served.actor.node.lastStabilizeTime = 0) ∧
      ∃ timed, served.step sampleP2pmEnv .times = some timed ∧
        (timed.actor.node.revents.successor = false ∧ timed.actor.node.successorSocketExpectedActions = .noXpv) ∧
      ∃ followed, timed.step sampleP2pmEnv .follows = some followed ∧
        (followed.actor.node.revents.predecessor = false ∧ followed.actor.node.predecessorSocketExpectedActions = .noXpv ∧
          followed.actor.node.predecessorTriggeredActions = .noXpv ∧ followed.actor.node.predecessorLastpollTime = 0 ∧
          followed.actor.node.ticks = 3) ∧
      ∃ final, Runs.run (LoopProgress.step sampleP2pmEnv) followed [.precedes, .returns] = some final ∧ final.owed .relay = true :=
    ⟨_, rfl, _, rfl, ⟨rfl, rfl⟩, _, rfl, ⟨rfl, rfl⟩, _, rfl, ⟨rfl, rfl, rfl, rfl, rfl⟩, _, rfl, rfl⟩
  have ran : Runs.run (LoopProgress.step sampleP2pmEnv) (LoopProgress.start (sampleHeard 0)) sampleStages = some final := by
    simp only [sampleStages, Runs.run, begins, serves, times, follows]
    exact rest
  refine ⟨final, ran, owed, deferred_actions_kept sampleP2pmEnv (sampleHeard 0) sampleStages final .relay rfl rfl ?_ ran owed⟩
  intro next taken
  cases begins.symm.trans taken
  refine ⟨trivial, fun next taken => ?_⟩
  cases serves.symm.trans taken
  refine ⟨trivial, fun next taken => ?_⟩
  cases times.symm.trans taken
  refine ⟨fun _ _ due => ?_, fun next taken => ?_⟩
  · have late := due.2
    rw [timer.1, timer.2] at late
    exact absurd late (by decide)
  cases follows.symm.trans taken
  refine ⟨fun _ _ other sets => ?_, fun next _ => ⟨⟨fun _ _ => Or.inl ?_, fun overdue => ?_⟩, fun _ _ => ⟨trivial, trivial⟩⟩⟩
  · cases other with
    | findHead =>
        rcases sets.2.2.1 with is | is
        · cases successor.2.symm.trans is
        · cases successor.2.symm.trans is
    | replicate => cases successor.1.symm.trans sets.1
    | relay => exact absurd sets not_false
  · obtain ⟨silent, expected, triggered, heard, ticks⟩ := predecessor
    refine ⟨⟨silent, fun overdue => overdue.2.2 expected, fun late => ?_⟩, fun other waits => pinged_set other (waits.symm.trans triggered)⟩
    have late := late.1
    rw [ticks, heard] at late
    exact absurd late (by decide)
  · exact absurd predecessor.2.1 overdue.2.2

set_option maxRecDepth 20000 in
-- A predecessor that has been silent for longer than wait: the pass only notes the time, and clears the action.
theorem relay_dropped : ¬ ∀ (env : P2pmEnv) (actor : P2pmdActor) (stages : List LoopStage) (final : LoopProgress) (deferred : Deferred),
    actor.node.serverTriggeredActions = .noXpv → actor.node.predecessorTriggeredActions = .noXpv →
      Runs.run (LoopProgress.step env) (LoopProgress.start actor) stages = some final → final.owed deferred = true →
      final.actor.node.Records deferred := by
  intro claim
  obtain ⟨final, ran, owed, server, triggered, expected⟩ : ∃ final : LoopProgress,
      Runs.run (LoopProgress.step sampleP2pmEnv) (LoopProgress.start (sampleHeard (-2000))) sampleStages = some final ∧
        final.owed .relay = true ∧ final.actor.node.serverTriggeredActions = .noXpv ∧
        final.actor.node.predecessorTriggeredActions = .noXpv ∧ final.actor.node.predecessorSocketExpectedActions = .noXpv :=
    ⟨_, rfl, rfl, rfl, rfl, rfl⟩
  rcases claim sampleP2pmEnv (sampleHeard (-2000)) sampleStages final .relay rfl rfl ran owed with set | waits | sent
  · rw [server] at set
    cases set
  · rw [triggered] at waits
    cases waits
  · rw [expected] at sent
    cases sent

end Synergy
