import Synergy.Boundaries
import Synergy.Deferrals
import Synergy.Pongs

set_option autoImplicit false

namespace Synergy

-- The loop from _process_timeo gets to the end of the iteration, and so to zmq_poll, after finitely many passes.
inductive Polls (env : P2pmEnv) : P2pmdActor → Prop where
  | ends (actor next : P2pmdActor) (passed : processTimeo env actor = .ok next) (settled : next.again = false) : Polls env actor
  | repeats (actor next : P2pmdActor) (passed : processTimeo env actor = .ok next) (overdue : next.again = true)
      (later : Polls env next) : Polls env actor

-- The actor some passes later, each of which has gone back to _process_timeo.
inductive GoesBack (env : P2pmEnv) : P2pmdActor → P2pmdActor → Prop where
  | here (actor : P2pmdActor) : GoesBack env actor actor
  | pass (actor next later : P2pmdActor) (passed : processTimeo env actor = .ok next) (overdue : next.again = true)
      (behind : GoesBack env next later) : GoesBack env actor later

theorem polls_later (env : P2pmEnv) (actor later : P2pmdActor) (reached : GoesBack env actor later) :
    Polls env actor ↔ Polls env later := by
  induction reached with
  | here actor => exact Iff.rfl
  | pass actor next later passed overdue _ ih =>
      rw [← ih]
      constructor
      · intro polls
        cases polls with
        | ends _ next' passed' settled =>
            cases Except.ok.inj (passed.symm.trans passed')
            rw [overdue] at settled
            cases settled
        | repeats _ next' passed' _ behind =>
            cases Except.ok.inj (passed.symm.trans passed')
            exact behind
      · intro polls
        exact .repeats actor next passed overdue polls

-- The readings of the clock in a pass: one more than this, at most.
def lastReading : Nat := 11

def P2pmEnv.Forward (env : P2pmEnv) : Prop := ∀ i, env.clock i ≤ env.clock (i + 1)

-- The clock advances by less than either interval in the pass that begins here.
def P2pmEnv.Steady (env : P2pmEnv) (ticks : Nat) : Prop :=
  env.clock (ticks + lastReading) - env.clock ticks < env.wait.toNat ∧
    env.clock (ticks + lastReading) - env.clock ticks < env.stabilizeInterval

def P2pm.StabilizeLate (env : P2pmEnv) (node : P2pm) (tick : Nat) : Prop :=
  env.clock tick - node.lastStabilizeTime > env.stabilizeInterval

def P2pm.SuccessorLate (env : P2pmEnv) (node : P2pm) (tick : Nat) : Prop :=
  env.clock tick - node.successorLastpollTime > env.wait.toNat

def P2pm.PredecessorLate (env : P2pmEnv) (node : P2pm) (tick : Nat) : Prop :=
  env.clock tick - node.predecessorLastpollTime > env.wait.toNat

-- None of the three deadlines runs out while the pass goes on.
structure P2pm.Still (env : P2pmEnv) (node : P2pm) : Prop where
  stabilize : node.StabilizeLate env (node.ticks + lastReading) → node.StabilizeLate env node.ticks
  successor : node.SuccessorLate env (node.ticks + lastReading) → node.SuccessorLate env node.ticks
  predecessor : node.PredecessorLate env (node.ticks + lastReading) → node.PredecessorLate env node.ticks

-- The pass resets what is late: with the server's flag still set it does nothing, with the successor's it does not get to the
-- trigger, and without them only a member stabilises, unless the successor's timeout comes first.
def P2pm.Settles (env : P2pmEnv) (node : P2pm) : Prop :=
  if node.revents.server then
    ¬ node.StabilizeLate env node.ticks ∧ ¬ node.SuccessorLate env node.ticks ∧ ¬ node.PredecessorLate env node.ticks
  else if node.revents.successor then
    ¬ node.StabilizeLate env node.ticks ∧ node.successorSocket.inbox ≠ [] ∧ ¬ node.OnlyPongs env
  else
    node.StabilizeLate env node.ticks →
      (node.currentStatus = .member ∨ node.serverTriggeredActions = .triggerStabilize) ∧
        ¬ (stabilizeTimer env node).SuccessorOverdue env

theorem clock_forward (env : P2pmEnv) (forward : env.Forward) (i j : Nat) (before : i ≤ j) : env.clock i ≤ env.clock j := by
  induction j, before using Nat.le_induction with
  | base => exact le_rfl
  | succ j _ ih => exact ih.trans (forward j)

-- A time that a pass keeps: one it has read, or the old one, which was within the limit when the pass looked at it.
def Attended (env : P2pmEnv) (first last : Nat) (old new : Int) : Prop :=
  (∃ i, first ≤ i ∧ i ≤ last ∧ new = env.clock i) ∨
    (new = old ∧ ∃ i, first ≤ i ∧ i ≤ last ∧ env.clock i - old ≤ env.wait.toNat)

theorem attended_wider (env : P2pmEnv) (first first' last last' : Nat) (old new : Int) (before : first' ≤ first) (after : last ≤ last')
    (attended : Attended env first last old new) : Attended env first' last' old new := by
  rcases attended with ⟨i, low, high, read⟩ | ⟨same, i, low, high, within⟩
  · exact Or.inl ⟨i, by omega, by omega, read⟩
  · exact Or.inr ⟨same, i, by omega, by omega, within⟩

theorem attended_in_time (env : P2pmEnv) (forward : env.Forward) (first last : Nat) (old new : Int)
    (attended : Attended env first last old new) (steady : env.clock last - env.clock first < env.wait.toNat)
    (still : env.clock last - old > env.wait.toNat → env.clock first - old > env.wait.toNat) :
    ¬ env.clock last - new > env.wait.toNat := by
  intro late
  rcases attended with ⟨i, low, high, read⟩ | ⟨same, i, low, high, within⟩
  · have after := clock_forward env forward first i low
    omega
  · rw [same] at late
    have started := still late
    have after := clock_forward env forward first i low
    omega

structure Times (env : P2pmEnv) (readings : Nat) (old next : P2pm) : Prop where
  forward : old.ticks ≤ next.ticks
  few : next.ticks ≤ old.ticks + readings
  status : next.currentStatus = old.currentStatus ∨ next.currentStatus = .findingHead
  stabilize : next.lastStabilizeTime = old.lastStabilizeTime

theorem fail_over_times (env : P2pmEnv) (self next : P2pm) (done : failOver env self = .ok next) :
    Times env 0 self next ∧ next.successorLastpollTime = self.successorLastpollTime := by
  obtain ⟨slot, _, done⟩ := bind_ok _ _ _ done
  split at done
  · obtain ⟨list, _, done⟩ := bind_ok _ _ _ done
    obtain ⟨fixed, _, done⟩ := bind_ok _ _ _ done
    obtain ⟨first, _, done⟩ := bind_ok _ _ _ done
    split at done
    · cases done
    · cases done
      exact ⟨⟨le_rfl, le_rfl, Or.inl rfl, rfl⟩, rfl⟩
  · cases done
    exact ⟨⟨le_rfl, le_rfl, Or.inr rfl, rfl⟩, rfl⟩

theorem successor_timeout_times (env : P2pmEnv) (self next : P2pm) (done : successorTimeout env self = .ok next) :
    Times env 3 self next ∧ ∃ i, self.ticks ≤ i ∧ i ≤ next.ticks ∧ next.successorLastpollTime = env.clock i := by
  unfold successorTimeout at done
  dsimp only [zclockMono] at done
  have ended : ∀ before : P2pm, failOver env before = .ok next → before.ticks = self.ticks + 1 →
      before.currentStatus = self.currentStatus → before.lastStabilizeTime = self.lastStabilizeTime →
      before.successorLastpollTime = env.clock self.ticks → Times env 3 self next ∧
        ∃ i, self.ticks ≤ i ∧ i ≤ next.ticks ∧ next.successorLastpollTime = env.clock i := by
    intro before done ticks status stabilized polled
    obtain ⟨times, kept⟩ := fail_over_times env before next done
    have forward := times.forward
    have few := times.few
    refine ⟨⟨by omega, by omega, ?_, times.stabilize.trans stabilized⟩, self.ticks, le_rfl, by omega, kept.trans polled⟩
    rw [← status]
    exact times.status
  split at done
  · cases done
    exact ⟨⟨by simp only [pingAgain, zclockMono, successorSend]; omega, by simp only [pingAgain, zclockMono, successorSend]; omega,
      Or.inl rfl, rfl⟩, self.ticks + 2, by omega, by simp only [pingAgain, zclockMono, successorSend]; omega, rfl⟩
  · cases done
    exact ⟨⟨by simp only [pingAgain, zclockMono, successorSend]; omega, by simp only [pingAgain, zclockMono, successorSend]; omega,
      Or.inl rfl, rfl⟩, self.ticks + 1, by omega, by simp only [pingAgain, zclockMono, successorSend]; omega, rfl⟩
  · exact ended _ done rfl rfl rfl rfl
  · exact ended _ done rfl rfl rfl rfl
  · cases done
    exact ⟨⟨by simp only; omega, by simp only; omega, Or.inl rfl, rfl⟩, self.ticks, le_rfl, by simp only; omega, rfl⟩

theorem stabilize_acked_times (env : P2pmEnv) (self next : P2pm) (sRecv : UInt32) (done : stabilizeAcked env self sRecv = .ok next) :
    next.ticks = self.ticks ∧ next.lastStabilizeTime = self.lastStabilizeTime ∧
      next.successorLastpollTime = self.successorLastpollTime := by
  obtain ⟨⟨word, inbox⟩, _, done⟩ := bind_ok _ _ _ done
  dsimp only at done
  split at done
  · cases done
    exact ⟨rfl, rfl, rfl⟩
  · obtain ⟨⟨r, rest⟩, _, done⟩ := bind_ok _ _ _ done
    cases r with
    | none =>
        cases done
        exact ⟨rfl, rfl, rfl⟩
    | some r =>
        dsimp only at done
        split at done
        · cases done
          exact ⟨rfl, rfl, rfl⟩
        · cases rest with
          | nil =>
              cases done
              exact ⟨rfl, rfl, rfl⟩
          | cons part later =>
              obtain ⟨copied, _, done⟩ := bind_ok _ _ _ done
              cases done
              exact ⟨rfl, rfl, rfl⟩

theorem successor_readable_times (env : P2pmEnv) (self next : P2pm) (done : successorReadable env self = .ok next) :
    next.ticks = self.ticks + 1 ∧ next.lastStabilizeTime = self.lastStabilizeTime ∧
      next.successorLastpollTime = env.clock self.ticks := by
  unfold successorReadable at done
  dsimp only [zclockMono] at done
  split at done
  · cases done
  · obtain ⟨sRecv, _, done⟩ := bind_ok _ _ _ done
    have pinged : ∀ before : P2pm, (stabilizePinged env before sRecv).ticks = before.ticks ∧
        (stabilizePinged env before sRecv).lastStabilizeTime = before.lastStabilizeTime ∧
        (stabilizePinged env before sRecv).successorLastpollTime = before.successorLastpollTime := by
      intro before
      unfold stabilizePinged
      split
      · exact ⟨rfl, rfl, rfl⟩
      · exact ⟨rfl, rfl, rfl⟩
    split at done
    · cases done
      exact pinged _
    · cases done
      exact pinged _
    · cases done
      exact pinged _
    · exact stabilize_acked_times env _ next sRecv done
    · cases done
      exact ⟨rfl, rfl, rfl⟩

-- What _successor_socket_handler does to the times.
structure SuccessorTimes (env : P2pmEnv) (readings : Nat) (old next : P2pm) : Prop where
  forward : old.ticks ≤ next.ticks
  few : next.ticks ≤ old.ticks + readings
  attended : Attended env old.ticks next.ticks old.successorLastpollTime next.successorLastpollTime
  status : old.revents.successor = false → next.currentStatus = old.currentStatus ∨ next.currentStatus = .findingHead
  kept : old.revents.successor = true ∨ old.SuccessorOverdue env ∨ old.serverTriggeredActions ≠ .triggerStabilize →
    next.lastStabilizeTime = old.lastStabilizeTime
  stabilized : old.revents.successor = false → ¬ old.SuccessorOverdue env → old.serverTriggeredActions = .triggerStabilize →
    ∃ i, old.ticks ≤ i ∧ i ≤ next.ticks ∧ next.lastStabilizeTime = env.clock i

theorem successor_event_times (env : P2pmEnv) (self next : P2pm) (done : successorEvent env self = .ok next) :
    SuccessorTimes env 4 self next := by
  unfold successorEvent at done
  by_cases readable : self.revents.successor = true
  · rw [if_pos readable] at done
    obtain ⟨ticks, stabilized, polled⟩ := successor_readable_times env self next done
    have silent : ¬ self.revents.successor = false := by simp [readable]
    exact ⟨by omega, by omega, Or.inl ⟨self.ticks, le_rfl, by omega, polled⟩, fun quiet => absurd quiet silent,
      fun _ => stabilized, fun quiet => absurd quiet silent⟩
  · rw [if_neg readable] at done
    dsimp only [zclockMono] at done
    by_cases overdue : self.SuccessorOverdue env
    · have test := overdue
      unfold P2pm.SuccessorOverdue at test
      rw [if_pos test] at done
      obtain ⟨times, i, low, high, polled⟩ := successor_timeout_times env _ next done
      have forward := times.forward
      have few := times.few
      dsimp only at forward few low
      exact ⟨by omega, by omega, Or.inl ⟨i, by omega, high, polled⟩, fun _ => times.status, fun _ => times.stabilize,
        fun _ settled => absurd overdue settled⟩
    · have test := overdue
      unfold P2pm.SuccessorOverdue at test
      rw [if_neg test] at done
      by_cases triggered : self.serverTriggeredActions = .triggerStabilize
      · rw [if_pos triggered] at done
        cases done
        refine ⟨?_, ?_, Or.inl ⟨self.ticks + 2, by omega, ?_, rfl⟩, fun _ => Or.inl rfl, fun kept => ?_,
          fun _ _ _ => ⟨self.ticks + 1, by omega, ?_, rfl⟩⟩
        · simp only [triggerStabilize, zclockMono, successorSend]
          omega
        · simp only [triggerStabilize, zclockMono, successorSend]
          omega
        · simp only [triggerStabilize, zclockMono, successorSend]
          omega
        · rcases kept with flag | late | other
          · exact absurd flag readable
          · exact absurd late overdue
          · exact absurd triggered other
        · simp only [triggerStabilize, zclockMono, successorSend]
          omega
      · rw [if_neg triggered] at done
        split at done
        · cases done
          exact ⟨by simp only; omega, by simp only; omega, Or.inl ⟨self.ticks + 2, by omega, by simp only; omega, rfl⟩,
            fun _ => Or.inl rfl, fun _ => rfl, fun _ _ is => absurd is triggered⟩
        · rename_i young
          cases done
          have within : env.clock (self.ticks + 1) - self.successorLastpollTime ≤ env.wait.toNat := by
            omega
          exact ⟨by simp only; omega, by simp only; omega, Or.inr ⟨rfl, self.ticks + 1, by omega, by simp only; omega, within⟩,
            fun _ => Or.inl rfl, fun _ => rfl, fun _ _ is => absurd is triggered⟩

theorem flush_token_times (env : P2pmEnv) (self next : P2pm) (done : flushToken env self = .ok next) :
    self.ticks ≤ next.ticks ∧ next.ticks ≤ self.ticks + 1 ∧ next.currentStatus = self.currentStatus ∧
      next.lastStabilizeTime = self.lastStabilizeTime ∧
      (next.successorLastpollTime = self.successorLastpollTime ∨ next.successorLastpollTime = env.clock self.ticks) := by
  unfold flushToken at done
  split at done
  · dsimp only [zclockMono] at done
    split at done
    · cases done
    · cases done
      exact ⟨by simp only [successorSend]; omega, by simp only [successorSend]; omega, rfl, rfl, Or.inr rfl⟩
  · cases done
    exact ⟨le_rfl, by omega, rfl, rfl, Or.inl rfl⟩

theorem successor_handler_times (env : P2pmEnv) (self next : P2pm) (done : successorSocketHandler env self = .ok next) :
    SuccessorTimes env 5 self next := by
  obtain ⟨middle, happened, flushed⟩ := successor_handler_parts env self next done
  have times := successor_event_times env self middle happened
  obtain ⟨forward, few, status, stabilized, polled⟩ := flush_token_times env middle next flushed
  have low := times.forward
  have high := times.few
  refine ⟨by omega, by omega, ?_, fun quiet => ?_, fun kept => stabilized.trans (times.kept kept), fun quiet young triggered => ?_⟩
  · rcases polled with same | read
    · rw [same]
      exact attended_wider env _ _ _ _ _ _ le_rfl forward times.attended
    · exact Or.inl ⟨middle.ticks, low, forward, read⟩
  · rw [status]
    exact times.status quiet
  · obtain ⟨i, after, before, read⟩ := times.stabilized quiet young triggered
    exact ⟨i, after, by omega, stabilized.trans read⟩

theorem predecessor_answered_times (env : P2pmEnv) (self next : P2pm) (done : predecessorAnswered env self = .ok next) :
    next.ticks = self.ticks ∧ next.predecessorLastpollTime = self.predecessorLastpollTime ∧
      (next.currentStatus = self.currentStatus ∨ next.currentStatus = .findingHead) := by
  unfold predecessorAnswered at done
  split at done
  · cases done
    exact ⟨rfl, rfl, Or.inr rfl⟩
  · obtain ⟨told, sent, done⟩ := bind_ok _ _ _ done
    obtain ⟨list, _, same⟩ := send_slist_sent env self told _ sent
    rw [same] at done
    cases done
    exact ⟨rfl, rfl, Or.inl rfl⟩
  · obtain ⟨told, sent, done⟩ := bind_ok _ _ _ done
    obtain ⟨list, _, same⟩ := send_slist_sent env self told _ sent
    rw [same] at done
    cases done
    exact ⟨rfl, rfl, Or.inl rfl⟩
  · cases done
    exact ⟨rfl, rfl, Or.inl rfl⟩

-- What _predecessor_socket_handler does to the times. It makes no member of a node that is none.
structure PredecessorTimes (env : P2pmEnv) (old next : P2pm) : Prop where
  forward : old.ticks ≤ next.ticks
  attended : Attended env old.ticks next.ticks old.predecessorLastpollTime next.predecessorLastpollTime
  status : old.currentStatus ≠ .member → next.currentStatus ≠ .member

theorem predecessor_readable_times (env : P2pmEnv) (self next : P2pm) (done : predecessorReadable env self = .ok next) :
    PredecessorTimes env self next ∧ next.ticks = self.ticks + 1 := by
  obtain ⟨⟨word, inbox⟩, _, done⟩ := bind_ok _ _ _ done
  dsimp only [zclockMono] at done
  have read : ∀ middle : P2pm, middle.ticks = self.ticks + 1 → middle.predecessorLastpollTime = env.clock self.ticks →
      (middle.currentStatus = self.currentStatus ∨ middle.currentStatus = .findingHead) →
      PredecessorTimes env self middle ∧ middle.ticks = self.ticks + 1 := by
    intro middle ticks polled status
    refine ⟨⟨by omega, Or.inl ⟨self.ticks, le_rfl, by omega, polled⟩, fun other => ?_⟩, ticks⟩
    rcases status with same | finding
    · rw [same]
      exact other
    · simp [finding]
  have answered : ∀ middle : P2pm,
      (if word.getD env.strayWord = P2pmReptypes.pongRep.code then predecessorAnswered env middle else pure (backwardsDone middle)) =
        .ok next → middle.ticks = self.ticks + 1 → middle.predecessorLastpollTime = env.clock self.ticks →
      middle.currentStatus = self.currentStatus → PredecessorTimes env self next ∧ next.ticks = self.ticks + 1 := by
    intro middle done ticks polled status
    split at done
    · obtain ⟨sameTicks, samePoll, kept⟩ := predecessor_answered_times env middle next done
      rw [status] at kept
      exact read next (sameTicks.trans ticks) (samePoll.trans polled) kept
    · cases done
      exact read _ ticks polled (Or.inl status)
  split at done
  · exact answered _ done rfl rfl rfl
  · exact answered _ done rfl rfl rfl
  · exact answered _ done rfl rfl rfl
  · cases done
    exact read _ rfl rfl (Or.inl rfl)
  · cases done
    exact read _ rfl rfl (Or.inl rfl)
  · cases done
    exact read _ rfl rfl (Or.inl rfl)

theorem predecessor_failed_times (env : P2pmEnv) (self next : P2pm) (done : predecessorFailed env self = .ok next) :
    next.ticks = self.ticks ∧ next.predecessorLastpollTime = self.predecessorLastpollTime ∧
      (next.currentStatus = self.currentStatus ∨ next.currentStatus = .oneRing) := by
  unfold predecessorFailed at done
  split at done
  · cases done
    exact ⟨rfl, rfl, Or.inl rfl⟩
  · obtain ⟨list, _, done⟩ := bind_ok _ _ _ done
    cases done
    exact ⟨rfl, rfl, Or.inr rfl⟩

theorem predecessor_idle_times (env : P2pmEnv) (self : P2pm)
    (young : ¬ (env.clock self.ticks - self.predecessorLastpollTime > env.wait.toNat ∧
      self.predecessorSocketExpectedActions ≠ .noXpv)) :
    PredecessorTimes env self (predecessorIdle env { self with ticks := self.ticks + 1 }) ∧
      (predecessorIdle env { self with ticks := self.ticks + 1 }).ticks ≤ self.ticks + 3 := by
  unfold predecessorIdle
  dsimp only [zclockMono]
  split
  · exact ⟨⟨by simp only; omega, Or.inl ⟨self.ticks + 2, by omega, by simp only; omega, rfl⟩, id⟩, by simp only; omega⟩
  · rename_i waits
    split
    · exact ⟨⟨by simp only [pingPredecessor, zclockMono, predecessorSend]; omega,
        Or.inl ⟨self.ticks + 2, by omega, by simp only [pingPredecessor, zclockMono, predecessorSend]; omega, rfl⟩, id⟩,
        by simp only [pingPredecessor, zclockMono, predecessorSend]; omega⟩
    · refine ⟨⟨by simp only; omega, Or.inr ⟨rfl, ?_⟩, id⟩, by simp only; omega⟩
      by_cases idle : self.predecessorSocketExpectedActions = .noXpv
      · have within : ¬ env.clock (self.ticks + 1) - self.predecessorLastpollTime > env.wait.toNat := fun late => waits ⟨late, idle⟩
        exact ⟨self.ticks + 1, by omega, by simp only; omega, by omega⟩
      · have within : ¬ env.clock self.ticks - self.predecessorLastpollTime > env.wait.toNat := fun late => young ⟨late, idle⟩
        exact ⟨self.ticks, le_rfl, by simp only; omega, by omega⟩

theorem predecessor_handler_times (env : P2pmEnv) (depth : Nat) (self next : P2pm)
    (done : predecessorSocketHandler env depth self = .ok next) : PredecessorTimes env self next := by
  induction depth generalizing self with
  | zero => cases done
  | succ depth ih =>
      unfold predecessorSocketHandler at done
      split at done
      · exact (predecessor_readable_times env self next done).1
      · dsimp only [zclockMono] at done
        split at done
        · have again : ∀ triggered : P2pmExpectedActions,
              PredecessorTimes env
                { self with
                  ticks := self.ticks + 1 + 1
                  predecessorLastpollTime := env.clock (self.ticks + 1)
                  serverTriggeredActions := triggered } next → PredecessorTimes env self next := by
            intro triggered times
            have forward := times.forward
            dsimp only at forward
            refine ⟨by omega, Or.inl ?_, times.status⟩
            rcases times.attended with ⟨i, low, high, read⟩ | ⟨same, _⟩
            · dsimp only at low
              exact ⟨i, by omega, high, read⟩
            · exact ⟨self.ticks + 1, by omega, by omega, same⟩
          have failed : ∀ before : P2pm, predecessorFailed env before = .ok next → before.ticks = self.ticks + 1 + 1 →
              before.predecessorLastpollTime = env.clock (self.ticks + 1) → before.currentStatus = self.currentStatus →
              PredecessorTimes env self next := by
            intro before done ticks polled status
            obtain ⟨sameTicks, samePoll, kept⟩ := predecessor_failed_times env before next done
            refine ⟨by omega, Or.inl ⟨self.ticks + 1, by omega, by omega, samePoll.trans polled⟩, fun other => ?_⟩
            rcases kept with same | alone
            · rw [same, status]
              exact other
            · simp [alone]
          split at done
          · cases done
            exact ⟨by simp only [pingPredecessor, zclockMono, predecessorSend]; omega,
              Or.inl ⟨self.ticks + 2, by omega, by simp only [pingPredecessor, zclockMono, predecessorSend]; omega, rfl⟩, id⟩
          · cases done
            exact ⟨by simp only [pingPredecessor, zclockMono, predecessorSend]; omega,
              Or.inl ⟨self.ticks + 2, by omega, by simp only [pingPredecessor, zclockMono, predecessorSend]; omega, rfl⟩, id⟩
          · exact failed _ done rfl rfl rfl
          · exact failed _ done rfl rfl rfl
          · exact again _ (ih _ done)
          · exact again _ (ih _ done)
          · cases done
            exact ⟨by simp only; omega, Or.inl ⟨self.ticks + 1, by omega, by simp only; omega, rfl⟩, id⟩
        · rename_i young
          cases done
          exact (predecessor_idle_times env self young).1

theorem stabilize_timer_times (env : P2pmEnv) (self : P2pm) :
    self.ticks ≤ (stabilizeTimer env self).ticks ∧ (stabilizeTimer env self).ticks ≤ self.ticks + 1 := by
  unfold stabilizeTimer
  dsimp only [zclockMono]
  split
  · split
    · exact ⟨by simp only; omega, le_rfl⟩
    · exact ⟨by simp only; omega, le_rfl⟩
  · exact ⟨le_rfl, by omega⟩

theorem stabilize_timer_due (env : P2pmEnv) (self : P2pm) (late : self.StabilizeLate env self.ticks) :
    (stabilizeTimer env self).currentStatus ≠ .member ∧
      ((stabilizeTimer env self).serverTriggeredActions = .triggerStabilize ↔
        self.currentStatus = .member ∨ self.serverTriggeredActions = .triggerStabilize) := by
  unfold P2pm.StabilizeLate at late
  by_cases member : self.currentStatus = .member
  · simp [stabilizeTimer, member, zclockMono, late]
  · simp [stabilizeTimer, member]

-- What p2pm_loop_server does to the times behind the server's message.
structure LoopTimes (env : P2pmEnv) (old next : P2pm) : Prop where
  forward : old.ticks ≤ next.ticks
  successor : Attended env old.ticks next.ticks old.successorLastpollTime next.successorLastpollTime
  predecessor : Attended env old.ticks next.ticks old.predecessorLastpollTime next.predecessorLastpollTime
  status : old.revents.successor = false → (stabilizeTimer env old).currentStatus ≠ .member → next.currentStatus ≠ .member
  kept : old.revents.successor = true ∨ (stabilizeTimer env old).SuccessorOverdue env ∨
    (stabilizeTimer env old).serverTriggeredActions ≠ .triggerStabilize → next.lastStabilizeTime = old.lastStabilizeTime
  stabilized : old.revents.successor = false → ¬ (stabilizeTimer env old).SuccessorOverdue env →
    (stabilizeTimer env old).serverTriggeredActions = .triggerStabilize →
    ∃ i, old.ticks ≤ i ∧ i ≤ next.ticks ∧ next.lastStabilizeTime = env.clock i
  flags : next.revents = old.revents
  inbox : next.serverInbox = old.serverInbox
  unset : next.serverTriggeredActions = .noXpv

theorem loop_sockets_times (env : P2pmEnv) (self next : P2pm) (done : loopSockets env self = .ok next) : LoopTimes env self next := by
  obtain ⟨middle, last, successor, predecessor, same⟩ := loop_sockets_parts env self next done
  have frame := (loop_sockets_frame env self next done).same
  obtain ⟨started, ticked⟩ := stabilize_timer_times env self
  have timer := stabilize_timer_frame env self
  have flagged : (stabilizeTimer env self).revents = self.revents := by rw [timer]
  have polledS : (stabilizeTimer env self).successorLastpollTime = self.successorLastpollTime := by rw [timer]
  have polledP : (stabilizeTimer env self).predecessorLastpollTime = self.predecessorLastpollTime := by rw [timer]
  have stabilized : (stabilizeTimer env self).lastStabilizeTime = self.lastStabilizeTime := by rw [timer]
  have one := successor_handler_times env _ middle successor
  have two := predecessor_handler_times env env.depth middle last predecessor
  have middleP : middle.predecessorLastpollTime = (stabilizeTimer env self).predecessorLastpollTime := by
    obtain ⟨event, happened, flushed⟩ := successor_handler_parts env _ middle successor
    rw [flush_token_frame env event middle flushed, (successor_event_frame env _ event happened).same]
  have lastFrame := (predecessor_handler_frame env env.depth middle last predecessor).same
  have lastS : last.successorLastpollTime = middle.successorLastpollTime := by rw [lastFrame]
  have lastL : last.lastStabilizeTime = middle.lastStabilizeTime := by rw [lastFrame]
  have oneForward := one.forward
  have twoForward := two.forward
  subst same
  refine ⟨?_, ?_, ?_, fun quiet none => ?_, fun kept => ?_, fun quiet young triggered => ?_, ?_, ?_, rfl⟩
  · dsimp only
    omega
  · dsimp only
    rw [lastS, ← polledS]
    exact attended_wider env _ _ _ _ _ _ started twoForward one.attended
  · dsimp only
    rw [← polledP, ← middleP]
    exact attended_wider env _ _ _ _ _ _ (by omega) le_rfl two.attended
  · apply two.status
    rcases one.status (by rw [flagged, quiet]) with same | finding
    · rw [same]
      exact none
    · simp [finding]
  · dsimp only
    rw [lastL, ← stabilized]
    exact one.kept (by rwa [flagged])
  · obtain ⟨i, low, high, read⟩ := one.stabilized (by rw [flagged, quiet]) young triggered
    exact ⟨i, by omega, by simp only; omega, lastL.trans read⟩
  · rw [frame]
  · rw [frame]

def P2pm.Late (env : P2pmEnv) (node : P2pm) (tick : Nat) : Prop :=
  node.StabilizeLate env tick ∨ node.SuccessorLate env tick ∨ node.PredecessorLate env tick

theorem after_loop_again (env : P2pmEnv) (actor : P2pmdActor) :
    ((afterLoop env actor).again = true ↔ actor.node.Late env actor.node.ticks) ∧
      ∃ holds token, (afterLoop env actor).node =
        { actor.node with ticks := actor.node.ticks + 1, recvHasToken := holds, recvToken := token } := by
  have passed : ∃ holds token, (passUp actor).node = { actor.node with recvHasToken := holds, recvToken := token } := by
    unfold passUp
    split
    · exact ⟨_, _, rfl⟩
    · exact ⟨_, _, rfl⟩
  obtain ⟨holds, token, same⟩ := passed
  unfold afterLoop
  simp only [zclockMono, same]
  split
  · rename_i late
    refine ⟨iff_of_true rfl ?_, holds, token, rfl⟩
    rcases late with a | b | c
    · exact Or.inl (by unfold P2pm.StabilizeLate; omega)
    · exact Or.inr (Or.inl (by unfold P2pm.SuccessorLate; omega))
    · exact Or.inr (Or.inr (by unfold P2pm.PredecessorLate; omega))
  · rename_i young
    refine ⟨iff_of_false (by simp) ?_, holds, token, rfl⟩
    rintro (a | b | c)
    · exact young (Or.inl (by unfold P2pm.StabilizeLate at a; omega))
    · exact young (Or.inr (Or.inl (by unfold P2pm.SuccessorLate at b; omega)))
    · exact young (Or.inr (Or.inr (by unfold P2pm.PredecessorLate at c; omega)))

-- The flag for the server stands from the last poll, and nothing is left to receive.
def P2pm.Quiet (node : P2pm) : Prop := node.revents.server = true → node.serverInbox = []

theorem process_timeo_skips (env : P2pmEnv) (actor : P2pmdActor) (flag : actor.node.revents.server = true)
    (quiet : actor.node.Quiet) : processTimeo env actor = .ok (afterLoop env actor) := by
  rw [process_timeo_after, p2pmLoopServer, if_pos flag, quiet flag]
  rfl

theorem process_timeo_sockets (env : P2pmEnv) (actor : P2pmdActor) (flag : ¬ actor.node.revents.server = true) :
    processTimeo env actor = (loopSockets env actor.node).map fun node => afterLoop env { actor with node := node } := by
  rw [process_timeo_after, p2pmLoopServer, if_neg flag]
  cases loopSockets env actor.node with
  | error stop => rfl
  | ok node => rfl

-- No pass from here on resets the deadline that is late.
def P2pm.Stuck (env : P2pmEnv) (node : P2pm) : Prop :=
  if node.revents.server then node.serverInbox = [] ∧ node.Late env node.ticks
  else
    node.StabilizeLate env node.ticks ∧
      (node.revents.successor = true ∨ (node.currentStatus ≠ .member ∧ node.serverTriggeredActions ≠ .triggerStabilize))

theorem late_later (env : P2pmEnv) (forward : env.Forward) (node : P2pm) (tick later : Nat) (order : tick ≤ later)
    (late : node.Late env tick) : node.Late env later := by
  have after := clock_forward env forward tick later order
  rcases late with a | b | c
  · exact Or.inl (by unfold P2pm.StabilizeLate at a ⊢; omega)
  · exact Or.inr (Or.inl (by unfold P2pm.SuccessorLate at b ⊢; omega))
  · exact Or.inr (Or.inr (by unfold P2pm.PredecessorLate at c ⊢; omega))

theorem timed_returns_iff (env : P2pmEnv) (self : P2pm) (readable : self.revents.successor = true) :
    Returns (successorSocketHandler env (stabilizeTimer env self)) ↔ self.successorSocket.inbox ≠ [] ∧ ¬ self.OnlyPongs env := by
  have timer := stabilize_timer_frame env self
  have inbox : (stabilizeTimer env self).successorSocket.inbox = self.successorSocket.inbox := by rw [timer]
  have flags : (stabilizeTimer env self).revents.successor = true := by
    rw [timer]
    exact readable
  have pongs : (stabilizeTimer env self).OnlyPongs env ↔ self.OnlyPongs env := by
    unfold P2pm.OnlyPongs
    rw [inbox, timer]
  rw [readable_handler_returns env _ flags]
  by_cases queued : self.successorSocket.inbox = []
  · refine iff_of_false ?_ fun both => both.1 queued
    have spins : successorReadable env (stabilizeTimer env self) = .error .diverges := by
      unfold successorReadable
      dsimp only [zclockMono]
      rw [inbox, queued]
      rfl
    rw [spins, returns_error]
    exact fun ends => ends rfl
  · rw [successor_readable_returns_iff env _ (by rw [inbox]; exact queued), pongs]
    exact (and_iff_right queued).symm

theorem unsettled_again (env : P2pmEnv) (forward : env.Forward) (actor next : P2pmdActor) (quiet : actor.node.Quiet)
    (unsettled : ¬ actor.node.Settles env) (passed : processTimeo env actor = .ok next) :
    next.again = true ∧ next.node.Stuck env := by
  by_cases flag : actor.node.revents.server = true
  · rw [process_timeo_skips env actor flag quiet] at passed
    cases passed
    have late : actor.node.Late env actor.node.ticks := by
      rw [P2pm.Settles, if_pos flag] at unsettled
      unfold P2pm.Late
      tauto
    obtain ⟨again, holds, token, same⟩ := after_loop_again env actor
    refine ⟨again.mpr late, ?_⟩
    have still := late_later env forward actor.node _ (actor.node.ticks + 1) (Nat.le_succ _) late
    rw [P2pm.Stuck, same, if_pos flag]
    exact ⟨quiet flag, still⟩
  · rw [process_timeo_sockets env actor flag] at passed
    cases looped : loopSockets env actor.node with
    | error stop =>
        rw [looped] at passed
        cases passed
    | ok node =>
        rw [looped] at passed
        cases passed
        have times := loop_sockets_times env actor.node node looped
        obtain ⟨again, holds, token, same⟩ := after_loop_again env { actor with node := node }
        have waits : actor.node.StabilizeLate env actor.node.ticks ∧ node.lastStabilizeTime = actor.node.lastStabilizeTime ∧
            (node.revents.successor = true ∨ node.currentStatus ≠ .member) := by
          rw [P2pm.Settles, if_neg flag] at unsettled
          by_cases readable : actor.node.revents.successor = true
          · rw [if_pos readable] at unsettled
            refine ⟨?_, times.kept (Or.inl readable), Or.inl (by rw [times.flags]; exact readable)⟩
            by_contra young
            obtain ⟨middle, last, successor, _⟩ := loop_sockets_parts env actor.node node looped
            have ended : Returns (successorSocketHandler env (stabilizeTimer env actor.node)) := by
              rw [successor]
              trivial
            exact unsettled ⟨young, (timed_returns_iff env actor.node readable).mp ended⟩
          · rw [if_neg readable] at unsettled
            have late : actor.node.StabilizeLate env actor.node.ticks := by
              by_contra young
              exact unsettled fun is => absurd is young
            have blocked : (actor.node.currentStatus = .member ∨ actor.node.serverTriggeredActions = .triggerStabilize) →
                (stabilizeTimer env actor.node).SuccessorOverdue env := by
              intro which
              by_contra young
              exact unsettled fun _ => ⟨which, young⟩
            obtain ⟨none, triggers⟩ := stabilize_timer_due env actor.node late
            have silent : actor.node.revents.successor = false := by simpa using readable
            refine ⟨late, times.kept ?_, Or.inr (times.status silent none)⟩
            by_cases triggered : (stabilizeTimer env actor.node).serverTriggeredActions = .triggerStabilize
            · exact Or.inr (Or.inl (blocked (triggers.mp triggered)))
            · exact Or.inr (Or.inr triggered)
        obtain ⟨late, kept, stays⟩ := waits
        have order := times.forward
        have behind : node.StabilizeLate env node.ticks := by
          have after := clock_forward env forward _ _ order
          unfold P2pm.StabilizeLate at late ⊢
          rw [kept]
          omega
        refine ⟨again.mpr (Or.inl behind), ?_⟩
        have after := clock_forward env forward node.ticks (node.ticks + 1) (Nat.le_succ _)
        rw [P2pm.Stuck, same, if_neg (by rw [times.flags]; exact flag)]
        refine ⟨?_, ?_⟩
        · unfold P2pm.StabilizeLate at behind ⊢
          dsimp only
          omega
        · rcases stays with readable | none
          · exact Or.inl readable
          · exact Or.inr ⟨none, by simp [times.unset]⟩

theorem stuck_unsettled (env : P2pmEnv) (node : P2pm) (stuck : node.Stuck env) : node.Quiet ∧ ¬ node.Settles env := by
  unfold P2pm.Stuck at stuck
  by_cases flag : node.revents.server = true
  · rw [if_pos flag] at stuck
    refine ⟨fun _ => stuck.1, ?_⟩
    rw [P2pm.Settles, if_pos flag]
    have late := stuck.2
    unfold P2pm.Late at late
    tauto
  · rw [if_neg flag] at stuck
    obtain ⟨late, which⟩ := stuck
    refine ⟨fun set => absurd set flag, ?_⟩
    rw [P2pm.Settles, if_neg flag]
    by_cases readable : node.revents.successor = true
    · rw [if_pos readable]
      exact fun settled => settled.1 late
    · rw [if_neg readable]
      intro settled
      rcases which with flagged | ⟨none, untriggered⟩
      · exact readable flagged
      · exact (settled late).1.elim none untriggered

theorem stuck_never_polls (env : P2pmEnv) (forward : env.Forward) (actor : P2pmdActor) (stuck : actor.node.Stuck env) :
    ¬ Polls env actor := by
  intro polls
  induction polls with
  | ends actor next passed settled =>
      obtain ⟨quiet, unsettled⟩ := stuck_unsettled env actor.node stuck
      rw [(unsettled_again env forward actor next quiet unsettled passed).1] at settled
      cases settled
  | repeats actor next passed _ _ ih =>
      obtain ⟨quiet, unsettled⟩ := stuck_unsettled env actor.node stuck
      exact ih (unsettled_again env forward actor next quiet unsettled passed).2

theorem read_slot_returns (list : Bytes) (k : Nat) : Returns (readSlot list k) := by
  unfold readSlot
  split
  · simp [returns_error]
  · trivial

theorem write_slot_returns (list block : Bytes) (k : Nat) : Returns (writeSlot list k block) := by
  unfold writeSlot
  split
  · simp [returns_error]
  · trivial

theorem condense_loop_returns (rounds ptr : Nat) (ok : Bool) (list : Bytes) : Returns (condenseLoop rounds ptr ok list) := by
  induction rounds generalizing ptr ok list with
  | zero => trivial
  | succ rounds ih =>
      unfold condenseLoop
      split
      · exact ih _ _ _
      · split
        · refine returns_bind _ _ (read_slot_returns _ _) fun block _ => ?_
          refine returns_bind _ _ (write_slot_returns _ _ _) fun copied _ => ?_
          exact returns_bind _ _ (write_slot_returns _ _ _) fun cleared _ => ih _ _ _
        · exact ih _ _ _

theorem fail_over_returns (env : P2pmEnv) (self : P2pm) : Returns (failOver env self) := by
  refine returns_bind _ _ (read_slot_returns _ _) fun next _ => ?_
  split
  · refine returns_bind _ _ (write_slot_returns _ _ _) fun list _ => ?_
    have fixes : Returns (p2pmNiFixSuccessorList { self.nodeList.toNodeInfo with successorList := list }) := by
      unfold p2pmNiFixSuccessorList
      split
      · trivial
      · exact returns_bind _ _ (condense_loop_returns _ _ _ _) fun _ _ => trivial
    refine returns_bind _ _ fixes fun fixed _ => ?_
    refine returns_bind _ _ (read_slot_returns _ _) fun first _ => ?_
    split
    · simp [returns_error, throw, throwThe, MonadExceptOf.throw]
    · trivial
  · trivial

theorem silent_handler_returns (env : P2pmEnv) (self : P2pm) (silent : ¬ self.revents.successor = true) :
    Returns (successorSocketHandler env self) := by
  refine returns_bind _ _ ?_ fun _ _ => flush_token_returns env _
  unfold successorEvent
  rw [if_neg silent]
  dsimp only [zclockMono]
  split
  · unfold successorTimeout
    dsimp only [zclockMono]
    split
    · trivial
    · trivial
    · exact fail_over_returns env _
    · exact fail_over_returns env _
    · trivial
  · split
    · trivial
    · split
      · trivial
      · trivial

theorem predecessor_answered_returns (env : P2pmEnv) (self : P2pm) : Returns (predecessorAnswered env self) := by
  have lists : ∀ ttl, Returns (sendSlist env self ttl) := by
    intro ttl
    refine returns_bind _ _ ?_ fun _ _ => trivial
    unfold NodeInfo.firstSlots
    dsimp only
    split
    · simp [returns_error]
    · trivial
  unfold predecessorAnswered
  split
  · trivial
  · exact returns_bind _ _ (lists _) fun _ _ => trivial
  · exact returns_bind _ _ (lists _) fun _ _ => trivial
  · trivial

theorem predecessor_readable_returns (env : P2pmEnv) (self : P2pm) : Returns (predecessorReadable env self) := by
  refine returns_bind _ _ (recv_word_returns _ _) fun ⟨word, inbox⟩ _ => ?_
  dsimp only [zclockMono]
  have answered : ∀ middle : P2pm, Returns (if word.getD env.strayWord = P2pmReptypes.pongRep.code then
      predecessorAnswered env middle else pure (backwardsDone middle)) := by
    intro middle
    split
    · exact predecessor_answered_returns env middle
    · trivial
  split
  · exact answered _
  · exact answered _
  · exact answered _
  · trivial
  · trivial
  · trivial

theorem predecessor_failed_returns (env : P2pmEnv) (self : P2pm) : Returns (predecessorFailed env self) := by
  unfold predecessorFailed
  split
  · trivial
  · refine returns_bind _ _ ?_ fun _ _ => trivial
    unfold writeAddress
    split
    · simp [returns_error]
    · trivial

-- In a pass that takes less than the wait the handler calls itself at most once.
theorem predecessor_handler_once (env : P2pmEnv) (depth : Nat) (self : P2pm)
    (young : ¬ env.clock (self.ticks + 2) - env.clock (self.ticks + 1) > env.wait.toNat) :
    Outcomes.Holds (fun stop => stop ≠ .diverges) (fun next : P2pm => next.ticks ≤ self.ticks + 5)
      (predecessorSocketHandler env (depth + 2) self) := by
  unfold predecessorSocketHandler
  by_cases readable : self.revents.predecessor = true
  · rw [if_pos readable]
    have returns := predecessor_readable_returns env self
    cases done : predecessorReadable env self with
    | error stop =>
        rw [done] at returns
        exact returns
    | ok next =>
        have ticks := (predecessor_readable_times env self next done).2
        show next.ticks ≤ self.ticks + 5
        omega
  · rw [if_neg readable]
    dsimp only [zclockMono]
    split
    · have again : ∀ triggered : P2pmExpectedActions,
          Outcomes.Holds (fun stop => stop ≠ .diverges) (fun next : P2pm => next.ticks ≤ self.ticks + 5)
            (predecessorSocketHandler env (depth + 1)
              { self with
                ticks := self.ticks + 1 + 1
                predecessorLastpollTime := env.clock (self.ticks + 1)
                serverTriggeredActions := triggered }) := by
        intro triggered
        have waits : ¬ (env.clock (self.ticks + 1 + 1) - env.clock (self.ticks + 1) > env.wait.toNat ∧
            self.predecessorSocketExpectedActions ≠ .noXpv) := fun late => young late.1
        unfold predecessorSocketHandler
        dsimp only [zclockMono]
        rw [if_neg readable, if_neg waits]
        have few := (predecessor_idle_times env
          { self with
            ticks := self.ticks + 1 + 1
            predecessorLastpollTime := env.clock (self.ticks + 1)
            serverTriggeredActions := triggered } waits).2
        exact few
      have failed : ∀ before : P2pm, before.ticks = self.ticks + 1 + 1 →
          Outcomes.Holds (fun stop => stop ≠ .diverges) (fun next : P2pm => next.ticks ≤ self.ticks + 5)
            (predecessorFailed env before) := by
        intro before ticks
        have returns := predecessor_failed_returns env before
        cases done : predecessorFailed env before with
        | error stop =>
            rw [done] at returns
            exact returns
        | ok next =>
            have same := (predecessor_failed_times env before next done).1
            show next.ticks ≤ self.ticks + 5
            omega
      split
      · show self.ticks + 1 + 1 + 1 ≤ self.ticks + 5
        omega
      · show self.ticks + 1 + 1 + 1 ≤ self.ticks + 5
        omega
      · exact failed _ rfl
      · exact failed _ rfl
      · exact again _
      · exact again _
      · show self.ticks + 1 + 1 ≤ self.ticks + 5
        omega
    · rename_i idle
      have few := (predecessor_idle_times env self idle).2
      show (predecessorIdle env { self with ticks := self.ticks + 1 }).ticks ≤ self.ticks + 5
      omega

theorem loop_sockets_once (env : P2pmEnv) (forward : env.Forward) (deep : 2 ≤ env.depth) (self : P2pm)
    (steady : env.Steady self.ticks) (returns : Returns (successorSocketHandler env (stabilizeTimer env self))) :
    Outcomes.Holds (fun stop => stop ≠ .diverges) (fun next : P2pm => next.ticks ≤ self.ticks + lastReading)
      (loopSockets env self) := by
  have ticked := (stabilize_timer_times env self).2
  have started := (stabilize_timer_times env self).1
  unfold loopSockets
  cases followed : successorSocketHandler env (stabilizeTimer env self) with
  | error stop =>
      rw [followed] at returns
      exact returns
  | ok middle =>
      have times := successor_handler_times env _ middle followed
      have few := times.few
      have order := times.forward
      have young : ¬ env.clock (middle.ticks + 2) - env.clock (middle.ticks + 1) > env.wait.toNat := by
        have first := clock_forward env forward self.ticks (middle.ticks + 1) (by omega)
        have last := clock_forward env forward (middle.ticks + 2) (self.ticks + lastReading) (by unfold lastReading; omega)
        have short := steady.1
        omega
      obtain ⟨depth, room⟩ : ∃ depth, env.depth = depth + 2 := ⟨env.depth - 2, by omega⟩
      have once := predecessor_handler_once env depth middle young
      rw [← room] at once
      cases preceded : predecessorSocketHandler env env.depth middle with
      | error stop =>
          rw [preceded] at once
          simp only [bind, Except.bind, preceded]
          exact once
      | ok last =>
          rw [preceded] at once
          have later : last.ticks ≤ middle.ticks + 5 := once
          simp only [bind, Except.bind, preceded]
          show last.ticks ≤ self.ticks + lastReading
          unfold lastReading
          omega

theorem settled_polls (env : P2pmEnv) (forward : env.Forward) (deep : 2 ≤ env.depth) (actor : P2pmdActor)
    (quiet : actor.node.Quiet) (steady : env.Steady actor.node.ticks) (still : actor.node.Still env)
    (defined : ∀ stop, processTimeo env actor = .error stop → stop = .diverges) (settles : actor.node.Settles env) :
    Polls env actor := by
  by_cases flag : actor.node.revents.server = true
  · refine .ends actor _ (process_timeo_skips env actor flag quiet) ?_
    have young : ¬ actor.node.Late env actor.node.ticks := by
      rw [P2pm.Settles, if_pos flag] at settles
      unfold P2pm.Late
      tauto
    simpa using fun again => young ((after_loop_again env actor).1.mp again)
  · have passed := process_timeo_sockets env actor flag
    rw [P2pm.Settles, if_neg flag] at settles
    have returns : Returns (successorSocketHandler env (stabilizeTimer env actor.node)) := by
      by_cases readable : actor.node.revents.successor = true
      · rw [if_pos readable] at settles
        exact (timed_returns_iff env actor.node readable).mpr settles.2
      · apply silent_handler_returns
        rw [stabilize_timer_frame]
        exact readable
    have once := loop_sockets_once env forward deep actor.node steady returns
    cases looped : loopSockets env actor.node with
    | error stop =>
        rw [looped] at once passed
        exact absurd (defined stop passed) once
    | ok node =>
        rw [looped] at once passed
        have few : node.ticks ≤ actor.node.ticks + lastReading := once
        refine .ends actor _ passed ?_
        have times := loop_sockets_times env actor.node node looped
        have order := times.forward
        have last := clock_forward env forward _ _ few
        have short := steady.1
        have brief := steady.2
        have young : ¬ node.Late env node.ticks := by
          rintro (late | late | late)
          · unfold P2pm.StabilizeLate at late
            have reset : (∃ i, actor.node.ticks ≤ i ∧ i ≤ node.ticks ∧ node.lastStabilizeTime = env.clock i) ∨
                (node.lastStabilizeTime = actor.node.lastStabilizeTime ∧ ¬ actor.node.StabilizeLate env actor.node.ticks) := by
              by_cases readable : actor.node.revents.successor = true
              · rw [if_pos readable] at settles
                exact Or.inr ⟨times.kept (Or.inl readable), settles.1⟩
              · rw [if_neg readable] at settles
                have silent : actor.node.revents.successor = false := by simpa using readable
                by_cases triggers : (stabilizeTimer env actor.node).serverTriggeredActions = .triggerStabilize ∧
                    ¬ (stabilizeTimer env actor.node).SuccessorOverdue env
                · exact Or.inl (times.stabilized silent triggers.2 triggers.1)
                · refine Or.inr ⟨times.kept (by tauto), fun before => triggers ?_⟩
                  obtain ⟨which, waits⟩ := settles before
                  exact ⟨(stabilize_timer_due env actor.node before).2.mpr which, waits⟩
            rcases reset with ⟨i, low, _, read⟩ | ⟨kept, young⟩
            · have first := clock_forward env forward _ _ low
              omega
            · apply young
              apply still.stabilize
              unfold P2pm.StabilizeLate
              omega
          · refine attended_in_time env forward _ _ _ _ times.successor (by omega) (fun before => still.successor ?_) late
            unfold P2pm.SuccessorLate
            omega
          · refine attended_in_time env forward _ _ _ _ times.predecessor (by omega) (fun before => still.predecessor ?_) late
            unfold P2pm.PredecessorLate
            omega
        simpa using fun again => young ((after_loop_again env { actor with node := node }).1.mp again)

-- The clock advances by less than either interval in any eight passes.
def P2pmEnv.Brief (env : P2pmEnv) : Prop :=
  ∀ ticks, env.clock (ticks + 8 * lastReading) - env.clock ticks < env.wait.toNat ∧
    env.clock (ticks + 8 * lastReading) - env.clock ticks < env.stabilizeInterval

theorem brief_steady (env : P2pmEnv) (forward : env.Forward) (brief : env.Brief) (ticks : Nat) : env.Steady ticks := by
  have within := clock_forward env forward (ticks + lastReading) (ticks + 8 * lastReading) (by omega)
  have short := brief ticks
  exact ⟨by omega, by omega⟩

-- The loop polls, or a pass of it does not come to its end.
def Leaves (env : P2pmEnv) (actor : P2pmdActor) : Prop :=
  Polls env actor ∨ ∃ later stop, GoesBack env actor later ∧ processTimeo env later = .error stop

theorem goes_back_trans (env : P2pmEnv) (actor middle later : P2pmdActor) (first : GoesBack env actor middle)
    (second : GoesBack env middle later) : GoesBack env actor later := by
  induction first with
  | here => exact second
  | pass actor next _ passed overdue _ ih => exact .pass actor next later passed overdue (ih second)

theorem leaves_later (env : P2pmEnv) (actor later : P2pmdActor) (reached : GoesBack env actor later) (leaves : Leaves env later) :
    Leaves env actor := by
  rcases leaves with polls | ⟨last, stop, behind, fails⟩
  · exact Or.inl ((polls_later env actor later reached).mpr polls)
  · exact Or.inr ⟨last, stop, goes_back_trans env actor later last reached behind, fails⟩

-- What passes without a message of the server's leave: each of the three times is the old one or was read since first.
structure Onward (env : P2pmEnv) (first : Nat) (old next : P2pmdActor) : Prop where
  quiet : next.node.Quiet
  stabilize : next.node.lastStabilizeTime = old.node.lastStabilizeTime ∨ env.clock first ≤ next.node.lastStabilizeTime
  successor : next.node.successorLastpollTime = old.node.successorLastpollTime ∨ env.clock first ≤ next.node.successorLastpollTime
  predecessor :
    next.node.predecessorLastpollTime = old.node.predecessorLastpollTime ∨ env.clock first ≤ next.node.predecessorLastpollTime

theorem kept_or_read {clock : Nat → Int} {first : Nat} {old middle next : Int} (one : middle = old ∨ clock first ≤ middle)
    (two : next = middle ∨ clock first ≤ next) : next = old ∨ clock first ≤ next := by
  rcases two with same | read
  · rw [same]
    exact one
  · exact Or.inr read

theorem onward_trans (env : P2pmEnv) (first : Nat) (old middle next : P2pmdActor) (one : Onward env first old middle)
    (two : Onward env first middle next) : Onward env first old next where
  quiet := two.quiet
  stabilize := kept_or_read one.stabilize two.stabilize
  successor := kept_or_read one.successor two.successor
  predecessor := kept_or_read one.predecessor two.predecessor

theorem attended_onward (env : P2pmEnv) (forward : env.Forward) (earlier first last : Nat) (old new : Int) (before : earlier ≤ first)
    (attended : Attended env first last old new) : new = old ∨ env.clock earlier ≤ new := by
  rcases attended with ⟨i, low, _, read⟩ | ⟨same, _⟩
  · rw [read]
    exact Or.inr (clock_forward env forward earlier i (by omega))
  · exact Or.inl same

theorem quiet_pass_onward (env : P2pmEnv) (forward : env.Forward) (deep : 2 ≤ env.depth) (actor next : P2pmdActor) (first : Nat)
    (quiet : actor.node.Quiet) (steady : env.Steady actor.node.ticks) (since : first ≤ actor.node.ticks)
    (passed : processTimeo env actor = .ok next) :
    actor.node.ticks < next.node.ticks ∧ next.node.ticks ≤ actor.node.ticks + lastReading + 1 ∧ Onward env first actor next := by
  by_cases flag : actor.node.revents.server = true
  · rw [process_timeo_skips env actor flag quiet] at passed
    cases passed
    obtain ⟨-, holds, token, same⟩ := after_loop_again env actor
    rw [same]
    refine ⟨Nat.lt_succ_self _, by dsimp only; omega, ?_⟩
    constructor
    · rw [same]
      exact quiet
    · exact Or.inl (by rw [same])
    · exact Or.inl (by rw [same])
    · exact Or.inl (by rw [same])
  · rw [process_timeo_sockets env actor flag] at passed
    cases looped : loopSockets env actor.node with
    | error stop =>
        rw [looped] at passed
        cases passed
    | ok node =>
        rw [looped] at passed
        cases passed
        have times := loop_sockets_times env actor.node node looped
        have order := times.forward
        have few : node.ticks ≤ actor.node.ticks + lastReading := by
          obtain ⟨middle, _, successor, _⟩ := loop_sockets_parts env actor.node node looped
          have once := loop_sockets_once env forward deep actor.node steady (by rw [successor]; trivial)
          rw [looped] at once
          exact once
        obtain ⟨-, holds, token, same⟩ := after_loop_again env { actor with node := node }
        have stabilized : node.lastStabilizeTime = actor.node.lastStabilizeTime ∨ env.clock first ≤ node.lastStabilizeTime := by
          by_cases kept : actor.node.revents.successor = true ∨ (stabilizeTimer env actor.node).SuccessorOverdue env ∨
              (stabilizeTimer env actor.node).serverTriggeredActions ≠ .triggerStabilize
          · exact Or.inl (times.kept kept)
          · push Not at kept
            obtain ⟨i, low, _, read⟩ := times.stabilized (by simpa using kept.1) kept.2.1 kept.2.2
            rw [read]
            exact Or.inr (clock_forward env forward first i (by omega))
        rw [same]
        refine ⟨by dsimp only; omega, by dsimp only; omega, ?_⟩
        constructor
        · rw [same]
          intro set
          exact absurd (times.flags ▸ set) flag
        · rw [same]
          exact stabilized
        · rw [same]
          exact attended_onward env forward first _ _ _ _ since times.successor
        · rw [same]
          exact attended_onward env forward first _ _ _ _ since times.predecessor

-- As many readings later, unless the loop is left before: a pass reads the clock at least once.
theorem goes_on (env : P2pmEnv) (forward : env.Forward) (deep : 2 ≤ env.depth) (brief : env.Brief) (actor : P2pmdActor)
    (quiet : actor.node.Quiet) (readings : Nat) :
    Leaves env actor ∨ ∃ later, GoesBack env actor later ∧ actor.node.ticks + readings ≤ later.node.ticks ∧
      later.node.ticks ≤ actor.node.ticks + readings + lastReading ∧ Onward env actor.node.ticks actor later := by
  induction readings with
  | zero => exact Or.inr ⟨actor, .here actor, le_rfl, by omega, quiet, Or.inl rfl, Or.inl rfl, Or.inl rfl⟩
  | succ readings ih =>
      rcases ih with leaves | ⟨middle, reached, low, high, onward⟩
      · exact Or.inl leaves
      by_cases enough : actor.node.ticks + (readings + 1) ≤ middle.node.ticks
      · exact Or.inr ⟨middle, reached, enough, by omega, onward⟩
      cases passed : processTimeo env middle with
      | error stop => exact Or.inl (Or.inr ⟨middle, stop, reached, passed⟩)
      | ok next =>
          obtain ⟨more, few, one⟩ := quiet_pass_onward env forward deep middle next actor.node.ticks onward.quiet
            (brief_steady env forward brief _) (by omega) passed
          cases again : next.again with
          | false => exact Or.inl (leaves_later env actor middle reached (Or.inl (.ends middle next passed again)))
          | true =>
              have behind := goes_back_trans env actor middle next reached (.pass middle next next passed again (.here next))
              exact Or.inr ⟨next, behind, by omega, by omega, onward_trans env _ actor middle next onward one⟩

def P2pmEnv.RunsOut (env : P2pmEnv) (time limit : Int) (tick : Nat) : Prop :=
  ¬ env.clock tick - time > limit ∧ env.clock (tick + lastReading) - time > limit

theorem runs_out_once (env : P2pmEnv) (forward : env.Forward) (time limit : Int) (tick later : Nat) (apart : tick + lastReading ≤ later)
    (first : env.RunsOut time limit tick) (second : env.RunsOut time limit later) : False := by
  have after := clock_forward env forward _ _ apart
  have late := first.2
  exact second.1 (by omega)

theorem read_runs_out (env : P2pmEnv) (forward : env.Forward) (first tick : Nat) (old new limit : Int)
    (same : new = old ∨ env.clock first ≤ new) (near_ : tick ≤ first + 7 * lastReading)
    (brief : env.clock (first + 8 * lastReading) - env.clock first < limit) (fails : ¬ (env.clock (tick + lastReading) - new > limit →
      env.clock tick - new > limit)) : env.RunsOut old limit tick := by
  push Not at fails
  rcases same with same | read
  · exact ⟨by rw [← same]; omega, by rw [← same]; exact fails.1⟩
  · have within := clock_forward env forward (tick + lastReading) (first + 8 * lastReading) (by omega)
    omega

def P2pmEnv.OneRunsOut (env : P2pmEnv) (node : P2pm) (tick : Nat) : Prop :=
  env.RunsOut node.lastStabilizeTime env.stabilizeInterval tick ∨ env.RunsOut node.successorLastpollTime env.wait.toNat tick ∨
    env.RunsOut node.predecessorLastpollTime env.wait.toNat tick

theorem onward_runs_out (env : P2pmEnv) (forward : env.Forward) (brief : env.Brief) (actor later : P2pmdActor)
    (onward : Onward env actor.node.ticks actor later) (near_ : later.node.ticks ≤ actor.node.ticks + 7 * lastReading)
    (moving : ¬ later.node.Still env) : env.OneRunsOut actor.node later.node.ticks := by
  obtain ⟨wait, interval⟩ := brief actor.node.ticks
  by_contra none
  unfold P2pmEnv.OneRunsOut at none
  push Not at none
  refine moving ⟨?_, ?_, ?_⟩
  · by_contra fails
    exact none.1 (read_runs_out env forward _ _ _ _ _ onward.stabilize near_ interval fails)
  · by_contra fails
    exact none.2.1 (read_runs_out env forward _ _ _ _ _ onward.successor near_ wait fails)
  · by_contra fails
    exact none.2.2 (read_runs_out env forward _ _ _ _ _ onward.predecessor near_ wait fails)

theorem two_run_out (gap : Nat) (p q : Nat → Prop) (pOnce : ∀ tick later, tick + gap ≤ later → p tick → ¬ p later)
    (qOnce : ∀ tick later, tick + gap ≤ later → q tick → ¬ q later) (a b c : Nat) (ab : a + gap ≤ b) (bc : b + gap ≤ c)
    (first : p a ∨ q a) (second : p b ∨ q b) (third : p c ∨ q c) : False := by
  rcases first with here | here
  · exact qOnce b c bc (second.resolve_left (pOnce a b ab here)) (third.resolve_left (pOnce a c (by omega) here))
  · exact pOnce b c bc (second.resolve_right (qOnce a b ab here)) (third.resolve_right (qOnce a c (by omega) here))

-- Of three things each of which happens once in so many readings, none is left for a fourth time.
theorem three_run_out (gap : Nat) (p q r : Nat → Prop) (pOnce : ∀ tick later, tick + gap ≤ later → p tick → ¬ p later)
    (qOnce : ∀ tick later, tick + gap ≤ later → q tick → ¬ q later) (rOnce : ∀ tick later, tick + gap ≤ later → r tick → ¬ r later)
    (a b c d : Nat) (ab : a + gap ≤ b) (bc : b + gap ≤ c) (cd : c + gap ≤ d) (first : p a ∨ q a ∨ r a)
    (second : p b ∨ q b ∨ r b) (third : p c ∨ q c ∨ r c) (fourth : p d ∨ q d ∨ r d) : False := by
  have ac : a + gap ≤ c := by omega
  have ad : a + gap ≤ d := by omega
  rcases first with here | here | here
  · exact two_run_out gap q r qOnce rOnce b c d bc cd (second.resolve_left (pOnce a b ab here))
      (third.resolve_left (pOnce a c ac here)) (fourth.resolve_left (pOnce a d ad here))
  · have others : ∀ tick, a + gap ≤ tick → p tick ∨ q tick ∨ r tick → p tick ∨ r tick :=
      fun tick apart one => one.imp id fun two => two.resolve_left (qOnce a tick apart here)
    exact two_run_out gap p r pOnce rOnce b c d bc cd (others b ab second) (others c ac third) (others d ad fourth)
  · have others : ∀ tick, a + gap ≤ tick → p tick ∨ q tick ∨ r tick → p tick ∨ q tick :=
      fun tick apart one => one.imp id fun two => two.resolve_right (rOnce a tick apart here)
    exact two_run_out gap p q pOnce qOnce b c d bc cd (others b ab second) (others c ac third) (others d ad fourth)

theorem served_pass (env : P2pmEnv) (actor next : P2pmdActor) (busy : ¬ actor.node.Quiet)
    (passed : processTimeo env actor = .ok next) : next.node.serverInbox.length < actor.node.serverInbox.length := by
  unfold P2pm.Quiet at busy
  push Not at busy
  obtain ⟨flag, queued⟩ := busy
  obtain ⟨identity, later, split⟩ := List.exists_cons_of_ne_nil queued
  rw [process_timeo_after, p2pmLoopServer, if_pos flag, split] at passed
  cases served : serveMessage env actor.node identity later with
  | error stop =>
      simp only [served, bind, Except.bind, Except.map] at passed
      cases passed
  | ok both =>
      obtain ⟨code, middle⟩ := both
      cases looped : loopSockets env middle with
      | error stop =>
          simp only [served, looped, bind, Except.bind, Except.map] at passed
          cases passed
      | ok node =>
          simp only [served, looped, bind, Except.bind, Except.map, pure, Except.pure] at passed
          cases passed
          obtain ⟨clientid, ubuf, inbox, _, received, done⟩ := serve_message_served env actor.node middle identity later code served
          have left := (serve_serves env _ middle _ code done).left
          obtain ⟨-, holds, token, same⟩ := after_loop_again env { actor with node := node }
          rw [same]
          dsimp only
          rw [(loop_sockets_times env middle node looped).inbox, left, split]
          dsimp only
          rw [recv_word_left env.host _ inbox ubuf received, List.drop_drop, List.length_drop, List.length_cons]
          omega

theorem quiet_reached (env : P2pmEnv) (messages : Nat) (actor : P2pmdActor) (bound : actor.node.serverInbox.length ≤ messages) :
    Leaves env actor ∨ ∃ later, GoesBack env actor later ∧ later.node.Quiet := by
  induction messages generalizing actor with
  | zero => exact Or.inr ⟨actor, .here actor, fun _ => List.eq_nil_of_length_eq_zero (by omega)⟩
  | succ messages ih =>
      by_cases quiet : actor.node.Quiet
      · exact Or.inr ⟨actor, .here actor, quiet⟩
      cases passed : processTimeo env actor with
      | error stop => exact Or.inl (Or.inr ⟨actor, stop, .here actor, passed⟩)
      | ok next =>
          have fewer := served_pass env actor next quiet passed
          cases again : next.again with
          | false => exact Or.inl (Or.inl (.ends actor next passed again))
          | true =>
              have one : GoesBack env actor next := .pass actor next next passed again (.here next)
              rcases ih next (by omega) with leaves | ⟨later, reached, silent⟩
              · exact Or.inl (leaves_later env actor next one leaves)
              · exact Or.inr ⟨later, goes_back_trans env actor next later one reached, silent⟩

-- With short passes a quiet loop is left, or comes to a pass in which no deadline runs out: each of the three runs out once.
theorem quiet_still_reached (env : P2pmEnv) (forward : env.Forward) (deep : 2 ≤ env.depth) (brief : env.Brief) (actor : P2pmdActor)
    (quiet : actor.node.Quiet) :
    Leaves env actor ∨ ∃ later, GoesBack env actor later ∧ later.node.Quiet ∧ later.node.Still env := by
  by_contra open_
  push Not at open_
  obtain ⟨stays, moving⟩ := open_
  have ahead : ∀ readings ≤ 6 * lastReading, ∃ tick, actor.node.ticks + readings ≤ tick ∧
      tick ≤ actor.node.ticks + readings + lastReading ∧ env.OneRunsOut actor.node tick := by
    intro readings bound
    rcases goes_on env forward deep brief actor quiet readings with leaves | ⟨later, reached, low, high, onward⟩
    · exact absurd leaves stays
    · refine ⟨later.node.ticks, low, high, onward_runs_out env forward brief actor later onward (by omega) ?_⟩
      exact moving later reached onward.quiet
  obtain ⟨a, _, aHigh, aOut⟩ := ahead 0 (by omega)
  obtain ⟨b, bLow, bHigh, bOut⟩ := ahead (2 * lastReading) (by omega)
  obtain ⟨c, cLow, cHigh, cOut⟩ := ahead (4 * lastReading) (by omega)
  obtain ⟨d, dLow, _, dOut⟩ := ahead (6 * lastReading) (by omega)
  have once := fun time limit tick later apart => runs_out_once env forward time limit tick later apart
  exact three_run_out lastReading _ _ _ (once _ _) (once _ _) (once _ _) a b c d (by omega) (by omega) (by omega) aOut bOut cOut dOut

theorem still_pass_reached (env : P2pmEnv) (forward : env.Forward) (deep : 2 ≤ env.depth) (brief : env.Brief) (actor : P2pmdActor) :
    Leaves env actor ∨ ∃ later, GoesBack env actor later ∧ later.node.Quiet ∧ later.node.Still env := by
  rcases quiet_reached env _ actor le_rfl with leaves | ⟨middle, first, quiet⟩
  · exact Or.inl leaves
  rcases quiet_still_reached env forward deep brief middle quiet with leaves | ⟨later, second, silent, still⟩
  · exact Or.inl (leaves_later env actor middle first leaves)
  · exact Or.inr ⟨later, goes_back_trans env actor middle later first second, silent, still⟩

-- With short passes nothing else decides: the loop polls if no pass of it fails and every still one settles.
theorem brief_polls_iff (env : P2pmEnv) (forward : env.Forward) (deep : 2 ≤ env.depth) (brief : env.Brief) (actor : P2pmdActor) :
    Polls env actor ↔ ∀ later, GoesBack env actor later →
      (∃ next, processTimeo env later = .ok next) ∧ (later.node.Quiet → later.node.Still env → later.node.Settles env) := by
  constructor
  · intro polls later reached
    have behind := (polls_later env actor later reached).mp polls
    have passes : ∃ next, processTimeo env later = .ok next := by
      cases behind with
      | ends _ next passed _ => exact ⟨next, passed⟩
      | repeats _ next passed _ _ => exact ⟨next, passed⟩
    refine ⟨passes, fun silent still => ?_⟩
    by_contra unsettled
    cases behind with
    | ends _ next passed settled =>
        rw [(unsettled_again env forward later next silent unsettled passed).1] at settled
        cases settled
    | repeats _ next passed _ more =>
        exact stuck_never_polls env forward next (unsettled_again env forward later next silent unsettled passed).2 more
  · intro every
    rcases still_pass_reached env forward deep brief actor with
      (polls | ⟨later, stop, reached, fails⟩) | ⟨later, reached, silent, still⟩
    · exact polls
    · obtain ⟨next, passed⟩ := (every later reached).1
      cases fails.symm.trans passed
    · obtain ⟨⟨next, passed⟩, settles⟩ := every later reached
      refine (polls_later env actor later reached).mpr ?_
      exact settled_polls env forward deep later silent (brief_steady env forward brief _) still
        (fun stop fails => by cases fails.symm.trans passed) (settles silent still)

-- Whatever the status and the actions are, and after however many passes: the loop ends if the first pass in which no
-- deadline runs out resets those that are late, and only then.
theorem actor_polls_iff (env : P2pmEnv) (actor later : P2pmdActor) (forward : env.Forward) (deep : 2 ≤ env.depth)
    (reached : GoesBack env actor later) (quiet : later.node.Quiet)
    (steady : env.Steady later.node.ticks) (still : later.node.Still env)
    (defined : ∀ stop, processTimeo env later = .error stop → stop = .diverges) :
    Polls env actor ↔ later.node.Settles env := by
  rw [polls_later env actor later reached]
  constructor
  · intro polls
    by_contra unsettled
    cases polls with
    | ends _ next passed settled =>
        rw [(unsettled_again env forward later next quiet unsettled passed).1] at settled
        cases settled
    | repeats _ next passed _ behind =>
        exact stuck_never_polls env forward next (unsettled_again env forward later next quiet unsettled passed).2 behind
  · exact settled_polls env forward deep later quiet steady still defined

-- An actor whose poll has timed out, with the node in the given status.
def sampleTimedOut (status : P2pmStatus) (stabilized : Int) : P2pmdActor where
  node := { sampleP2pm with currentStatus := status, lastStabilizeTime := stabilized }
  pipe := []
  again := false
  nextTimeo := 0
  terminated := false

theorem sample_forward : sampleP2pmEnv.Forward := by
  intro i
  show (i : Int) ≤ ((i + 1 : Nat) : Int)
  omega

theorem sample_steady (ticks : Nat) : sampleP2pmEnv.Steady ticks := by
  have wait : (sampleP2pmEnv.wait.toNat : Int) = 1000 := rfl
  constructor
  · show ((ticks + lastReading : Nat) : Int) - (ticks : Int) < (sampleP2pmEnv.wait.toNat : Int)
    rw [wait, lastReading]
    omega
  · show ((ticks + lastReading : Nat) : Int) - (ticks : Int) < 5000
    rw [lastReading]
    omega

theorem actor_polls_iff_sample :
    Polls sampleP2pmEnv (sampleTimedOut .member (-6000)) ∧ ¬ Polls sampleP2pmEnv (sampleTimedOut .oneRing (-6000)) := by
  have still : ∀ status, (sampleTimedOut status (-6000)).node.Still sampleP2pmEnv := by
    intro status
    constructor
    · intro _
      show (0 : Int) - (-6000) > 5000
      omega
    · intro (late : (11 : Int) - 0 > 1000)
      omega
    · intro (late : (11 : Int) - 0 > 1000)
      omega
  have none : ∀ status, (sampleTimedOut status (-6000)).node.Quiet := fun _ flag => by cases flag
  constructor
  · apply (actor_polls_iff sampleP2pmEnv _ _ sample_forward (by decide) (.here _) (none _) (sample_steady _) (still _)
      (fun stop failed => by cases failed)).mpr
    refine fun _ => ⟨Or.inl rfl, ?_⟩
    rintro (⟨_, expects⟩ | failure)
    · exact expects rfl
    · cases failure
  · intro polls
    have settles := (actor_polls_iff sampleP2pmEnv _ _ sample_forward (by decide) (.here _) (none _) (sample_steady _) (still _)
      (fun stop failed => by cases failed)).mp polls
    have member := (settles (by show (0 : Int) - (-6000) > 5000; omega)).1
    rcases member with status | triggered
    · cases status
    · cases triggered

-- A ring of one node does not stabilise, so that it polls for the last time when the interval is over.
theorem one_ring_never_polls : ¬ ∀ (env : P2pmEnv) (actor : P2pmdActor), 0 < env.wait → 0 < env.stabilizeInterval →
    2 ≤ env.depth → env.Forward → (∀ ticks, env.Steady ticks) → Polls env actor := by
  intro all
  have polls := all sampleP2pmEnv (sampleTimedOut .oneRing (-6000)) (by decide) (by decide) (by decide) sample_forward sample_steady
  apply stuck_never_polls sampleP2pmEnv sample_forward _ ?_ polls
  refine ⟨?_, Or.inr ⟨by decide, by decide⟩⟩
  show (0 : Int) - (-6000) > 5000
  omega

end Synergy
