import Synergy.Deadlines

set_option autoImplicit false

namespace Synergy

-- config->wait is over without a frame from the successor, which owes a reply.
def P2pm.SuccessorSilent (env : P2pmEnv) (self : P2pm) : Prop :=
  self.revents.successor = false ∧ env.clock self.ticks - self.successorLastpollTime ≥ env.wait.toNat ∧
    self.successorSocketExpectedActions ≠ .noXpv

-- The handler gets to the fail-over step: because of silence, or of an answer it does not want.
def P2pm.FailsOver (env : P2pmEnv) (self : P2pm) : Prop :=
  (self.SuccessorSilent env ∧ self.successorSocketExpectedActions = .pingAndStabilizeReq2) ∨
    (self.revents.successor = false ∧ self.successorSocketExpectedActions = .stabilizeFailure)

instance (env : P2pmEnv) (self : P2pm) : Decidable (self.SuccessorSilent env) := inferInstanceAs (Decidable (_ ∧ _))
instance (env : P2pmEnv) (self : P2pm) : Decidable (self.FailsOver env) := inferInstanceAs (Decidable (_ ∨ _))

-- A run of the actor. unanswered and asked are ghost: how many waits have run out one after the other, with a ping sent before
-- each, since the round began or the successor was last heard; whether a ping has been sent since the last of them.
structure Vigil where
  progress : LoopProgress
  unanswered : Nat
  asked : Bool

def Vigil.start (actor : P2pmdActor) : Vigil := { progress := LoopProgress.start actor, unanswered := 0, asked := false }

-- The waits that have run out when the one that runs out now is counted.
def Vigil.waits (self : Vigil) : Nat := if self.asked then self.unanswered + 1 else self.unanswered

-- What the call of _successor_socket_handler that ends with next means for the count.
def Vigil.follow (env : P2pmEnv) (self : Vigil) (next : LoopProgress) : Vigil :=
  let node := self.progress.actor.node
  let pinged := decide (pingPart env ∈ next.actor.node.successorSent.drop node.successorSent.length)
  if node.revents.successor = true ∨ node.FailsOver env then { progress := next, unanswered := 0, asked := pinged }
  else if node.SuccessorSilent env then { progress := next, unanswered := self.waits, asked := pinged }
  else if node.serverTriggeredActions = .triggerStabilize then { progress := next, unanswered := 0, asked := pinged }
  else { self with progress := next }

def Vigil.step (env : P2pmEnv) (self : Vigil) (stage : LoopStage) : Option Vigil :=
  match self.progress.step env stage with
  | none => none
  | some next =>
      match stage with
      | .follows => some (self.follow env next)
      | _ => some { self with progress := next }

def Vigil.GivesUp (env : P2pmEnv) (self : Vigil) (stage : LoopStage) : Prop :=
  match stage with
  | .follows =>
      self.progress.actor.node.SuccessorSilent env ∧
        self.progress.actor.node.successorSocketExpectedActions = .pingAndStabilizeReq2
  | _ => False

-- Three waits with a ping before each have run out by then.
def Vigil.Patient (env : P2pmEnv) (self : Vigil) (stage : LoopStage) : Prop := self.GivesUp env stage → 3 ≤ self.waits

-- The count never gets beyond one before the second wait, which is the last.
structure Vigil.Short (vigil : Vigil) : Prop where
  pinged : vigil.progress.actor.node.successorSocketExpectedActions = .pingAndStabilizeReq ∨
    vigil.progress.actor.node.successorSocketExpectedActions = .pingAndStabilizeReq1 → vigil.unanswered = 0
  again : vigil.progress.actor.node.successorSocketExpectedActions = .pingAndStabilizeReq2 → vigil.unanswered ≤ 1

theorem waits_bound (self : Vigil) : self.waits ≤ self.unanswered + 1 := by
  unfold Vigil.waits
  split
  · exact le_rfl
  · omega

theorem short_kept (self next : Vigil) (short : self.Short) (count : next.unanswered = self.unanswered)
    (expected : next.progress.actor.node.successorSocketExpectedActions = self.progress.actor.node.successorSocketExpectedActions ∨
      next.progress.actor.node.successorSocketExpectedActions = .noXpv) : next.Short := by
  rcases expected with same | unset
  · exact ⟨by rw [same, count]; exact short.pinged, by rw [same, count]; exact short.again⟩
  · exact ⟨by rw [unset]; simp, by rw [unset]; simp⟩

theorem short_fresh (next : Vigil) (none : next.unanswered = 0) : next.Short :=
  ⟨fun _ => none, fun _ => by omega⟩

theorem flush_token_expects (env : P2pmEnv) (self next : P2pm) (done : flushToken env self = .ok next) :
    next.successorSocketExpectedActions = self.successorSocketExpectedActions := by
  rw [flush_token_frame env self next done]

theorem successor_event_expects (env : P2pmEnv) (self next : P2pm) (done : successorEvent env self = .ok next)
    (silent : ¬ self.revents.successor = true) (stays : ¬ self.FailsOver env) :
    if self.SuccessorSilent env then
      next.successorSocketExpectedActions = .pingAndStabilizeReq2 ∧
          (self.successorSocketExpectedActions = .pingAndStabilizeReq ∨
            self.successorSocketExpectedActions = .pingAndStabilizeReq1) ∨
        next.successorSocketExpectedActions = self.successorSocketExpectedActions ∧
          self.successorSocketExpectedActions ≠ .pingAndStabilizeReq ∧
          self.successorSocketExpectedActions ≠ .pingAndStabilizeReq1 ∧
          self.successorSocketExpectedActions ≠ .pingAndStabilizeReq2
    else self.serverTriggeredActions ≠ .triggerStabilize →
      next.successorSocketExpectedActions = self.successorSocketExpectedActions := by
  have quiet : self.revents.successor = false := by simpa using silent
  have accepted : self.successorSocketExpectedActions ≠ .stabilizeFailure := fun failure => stays (Or.inr ⟨quiet, failure⟩)
  unfold successorEvent at done
  rw [if_neg silent] at done
  dsimp only [zclockMono] at done
  by_cases late : self.SuccessorSilent env
  · have once : self.successorSocketExpectedActions ≠ .pingAndStabilizeReq2 := fun last => stays (Or.inl ⟨late, last⟩)
    rw [if_pos late]
    rw [if_pos (Or.inl late.2)] at done
    unfold successorTimeout at done
    dsimp only [zclockMono] at done
    split at done
    · rename_i expected
      cases done
      exact Or.inl ⟨rfl, Or.inl expected⟩
    · rename_i expected
      cases done
      exact Or.inl ⟨rfl, Or.inr expected⟩
    · rename_i expected
      exact absurd expected once
    · rename_i expected
      exact absurd expected accepted
    · rename_i other1 other2 _ _
      cases done
      exact Or.inr ⟨rfl, other1, other2, once⟩
  · have young : ¬ ((env.clock self.ticks - self.successorLastpollTime ≥ env.wait.toNat ∧
        self.successorSocketExpectedActions ≠ .noXpv) ∨ self.successorSocketExpectedActions = .stabilizeFailure) := by
      rintro (overdue | failure)
      · exact late ⟨quiet, overdue⟩
      · exact accepted failure
    rw [if_neg late]
    rw [if_neg young] at done
    intro untriggered
    rw [if_neg untriggered] at done
    split at done
    · cases done
      rfl
    · cases done
      rfl

theorem follow_short (env : P2pmEnv) (self : Vigil) (next : LoopProgress) (short : self.Short)
    (done : successorSocketHandler env self.progress.actor.node = .ok next.actor.node) : (self.follow env next).Short := by
  obtain ⟨middle, happened, flushed⟩ := successor_handler_parts env _ _ done
  have expects := flush_token_expects env middle _ flushed
  unfold Vigil.follow
  dsimp only
  by_cases resets : self.progress.actor.node.revents.successor = true ∨ self.progress.actor.node.FailsOver env
  · rw [if_pos resets]
    exact short_fresh _ rfl
  · rw [if_neg resets]
    have event := successor_event_expects env _ middle happened (fun readable => resets (Or.inl readable))
      (fun fails => resets (Or.inr fails))
    by_cases silent : self.progress.actor.node.SuccessorSilent env
    · rw [if_pos silent] at event ⊢
      have count := waits_bound self
      rcases event with ⟨second, first⟩ | ⟨same, other1, other2, other3⟩
      · have none := short.pinged first
        refine ⟨?_, fun _ => ?_⟩
        · dsimp only
          rw [expects, second]
          simp
        · dsimp only
          omega
      · refine ⟨?_, ?_⟩
        · dsimp only
          rw [expects, same]
          rintro (one | two)
          · exact absurd one other1
          · exact absurd two other2
        · dsimp only
          rw [expects, same]
          exact fun three => absurd three other3
    · rw [if_neg silent] at event ⊢
      by_cases triggered : self.progress.actor.node.serverTriggeredActions = .triggerStabilize
      · rw [if_pos triggered]
        exact short_fresh _ rfl
      · rw [if_neg triggered]
        exact short_kept self _ short rfl (Or.inl (expects.trans (event triggered)))

theorem predecessor_answered_expects (env : P2pmEnv) (self next : P2pm) (done : predecessorAnswered env self = .ok next) :
    next.successorSocketExpectedActions = self.successorSocketExpectedActions := by
  unfold predecessorAnswered at done
  split at done
  · cases done
    rfl
  · obtain ⟨told, sent, done⟩ := bind_ok _ _ _ done
    obtain ⟨list, _, same⟩ := send_slist_sent env self told _ sent
    rw [same] at done
    cases done
    rfl
  · obtain ⟨told, sent, done⟩ := bind_ok _ _ _ done
    obtain ⟨list, _, same⟩ := send_slist_sent env self told _ sent
    rw [same] at done
    cases done
    rfl
  · cases done
    rfl

theorem predecessor_handler_expects (env : P2pmEnv) (depth : Nat) (self next : P2pm)
    (done : predecessorSocketHandler env depth self = .ok next) :
    next.successorSocketExpectedActions = self.successorSocketExpectedActions ∨ next.successorSocketExpectedActions = .noXpv := by
  induction depth generalizing self with
  | zero => cases done
  | succ depth ih =>
      have failed : ∀ before : P2pm, predecessorFailed env before = .ok next →
          before.successorSocketExpectedActions = self.successorSocketExpectedActions →
          next.successorSocketExpectedActions = self.successorSocketExpectedActions ∨
            next.successorSocketExpectedActions = .noXpv := by
        intro before done same
        unfold predecessorFailed at done
        split at done
        · cases done
          exact Or.inl same
        · obtain ⟨list, _, done⟩ := bind_ok _ _ _ done
          cases done
          exact Or.inr rfl
      unfold predecessorSocketHandler at done
      split at done
      · refine Or.inl ?_
        obtain ⟨⟨word, inbox⟩, _, done⟩ := bind_ok _ _ _ done
        dsimp only [zclockMono] at done
        have answered : ∀ middle : P2pm, (if word.getD env.strayWord = P2pmReptypes.pongRep.code then
            predecessorAnswered env middle else pure (backwardsDone middle)) = .ok next →
            middle.successorSocketExpectedActions = self.successorSocketExpectedActions →
            next.successorSocketExpectedActions = self.successorSocketExpectedActions := by
          intro middle done same
          split at done
          · exact (predecessor_answered_expects env middle next done).trans same
          · cases done
            exact same
        split at done
        · exact answered _ done rfl
        · exact answered _ done rfl
        · exact answered _ done rfl
        · cases done
          rfl
        · cases done
          rfl
        · cases done
          rfl
      · dsimp only [zclockMono] at done
        split at done
        · split at done
          · cases done
            exact Or.inl rfl
          · cases done
            exact Or.inl rfl
          · exact failed _ done rfl
          · exact failed _ done rfl
          · have again := ih _ done
            exact again
          · have again := ih _ done
            exact again
          · cases done
            exact Or.inl rfl
        · cases done
          unfold predecessorIdle
          dsimp only [zclockMono]
          split
          · exact Or.inl rfl
          · split
            · exact Or.inl rfl
            · exact Or.inl rfl

theorem polled_expects (actor : P2pmdActor) (turn : ActorTurn) :
    (actor.polled turn).node.successorSocketExpectedActions = actor.node.successorSocketExpectedActions := by
  cases turn with
  | interrupted => rfl
  | repeats arrivals => rfl
  | polls arrivals revents command =>
      simp only [P2pmdActor.polled]
      split
      · rfl
      · split
        · cases command with
          | _ => rfl
        · rfl

theorem stage_expects (env : P2pmEnv) (self next : LoopProgress) (stage : LoopStage) (other : stage ≠ .follows)
    (taken : self.step env stage = some next) :
    next.actor.node.successorSocketExpectedActions = self.actor.node.successorSocketExpectedActions ∨
      next.actor.node.successorSocketExpectedActions = .noXpv := by
  cases stage with
  | begins turn =>
      simp only [LoopProgress.step] at taken
      split at taken
      · cases taken
      · cases taken
        exact Or.inl (polled_expects self.actor turn)
  | serves =>
      simp only [LoopProgress.step] at taken
      split at taken
      · cases taken
      · split at taken
        · split at taken
          · cases taken
            exact Or.inl rfl
          · rename_i identity later waiting
            split at taken
            · cases taken
            · rename_i code node serve
              cases taken
              refine Or.inl ?_
              show node.successorSocketExpectedActions = _
              rw [(serve_message_frame env _ node identity later code serve).same]
        · cases taken
          exact Or.inl rfl
  | times =>
      simp only [LoopProgress.step] at taken
      split at taken
      · cases taken
      · cases taken
        refine Or.inl ?_
        show (stabilizeTimer env self.actor.node).successorSocketExpectedActions = _
        rw [stabilize_timer_frame]
  | follows => exact absurd rfl other
  | precedes =>
      simp only [LoopProgress.step] at taken
      split at taken
      · cases taken
      · split at taken
        · cases taken
        · rename_i node precede
          cases taken
          exact predecessor_handler_expects env env.depth _ node precede
  | returns =>
      have after : ∀ actor : P2pmdActor,
          (afterLoop env actor).node.successorSocketExpectedActions = actor.node.successorSocketExpectedActions := by
        intro actor
        obtain ⟨_, holds, token, same⟩ := after_loop_again env actor
        rw [same]
      simp only [LoopProgress.step] at taken
      split at taken
      · cases taken
        exact Or.inl (after _)
      · split at taken
        · cases taken
          exact Or.inl (after _)
        · cases taken

theorem vigil_step_short (env : P2pmEnv) (self next : Vigil) (stage : LoopStage) (short : self.Short)
    (taken : self.step env stage = some next) : next.Short := by
  unfold Vigil.step at taken
  cases moved : self.progress.step env stage with
  | none =>
      rw [moved] at taken
      cases taken
  | some progress =>
      rw [moved] at taken
      by_cases follows : stage = .follows
      · subst follows
        cases taken
        apply follow_short env self progress short
        simp only [LoopProgress.step] at moved
        split at moved
        · cases moved
        · split at moved
          · cases moved
          · rename_i node followed
            cases moved
            exact followed
      · have expects := stage_expects env self.progress progress stage follows moved
        cases stage with
        | follows => exact absurd rfl follows
        | _ =>
            cases taken
            exact short_kept self _ short rfl expects

theorem gives_up_early (env : P2pmEnv) (self : Vigil) (stage : LoopStage) (short : self.Short) (up : self.GivesUp env stage) :
    self.waits ≤ 2 := by
  have bound := waits_bound self
  cases stage with
  | follows =>
      have count := short.again up.2
      omega
  | _ => exact up.elim

-- Along any run of the daemon: a successor that is given up for its silence has been so before the third wait.
theorem given_up_early_iff (env : P2pmEnv) (actor : P2pmdActor) (stages : List LoopStage) :
    Runs.Meets (Vigil.step env) (Vigil.Patient env) (Vigil.start actor) stages ↔
      Runs.Meets (Vigil.step env) (fun vigil stage => ¬ vigil.GivesUp env stage) (Vigil.start actor) stages := by
  apply Runs.meets_iff_meets (Vigil.step env) _ _ Vigil.Short
  · intro vigil stage next short _
    constructor
    · intro patient up
      have three := patient up
      have two := gives_up_early env vigil stage short up
      omega
    · intro stays up
      exact absurd up stays
  · intro vigil stage next short _ taken
    exact vigil_step_short env vigil next stage short taken
  · exact short_fresh _ rfl

-- A second goes by from one reading of the clock to the next.
def sampleSlowEnv : P2pmEnv := { sampleP2pmEnv with clock := fun n => 1000 * n }

def samplePass (turn : ActorTurn) : List LoopStage := [.begins turn, .serves, .times, .follows, .precedes, .returns]

def sampleNothing : Arrivals := { server := [], successor := [], predecessor := [] }

-- The stabilisation begins, and in the next two passes nothing comes.
def sampleSilence : List LoopStage :=
  samplePass (.polls sampleNothing { server := false, successor := false, predecessor := false, pipe := false } .terminate) ++
    samplePass (.repeats sampleNothing) ++ [.begins (.repeats sampleNothing), .serves, .times]

set_option maxRecDepth 20000 in
theorem sample_silence_reached : ∃ vigil,
    Runs.run (Vigil.step sampleSlowEnv) (Vigil.start (sampleTimedOut .member (-6000))) sampleSilence = some vigil ∧
      vigil.GivesUp sampleSlowEnv .follows ∧ vigil.waits = 2 ∧ (vigil.step sampleSlowEnv .follows).isSome = true := by
  refine ⟨_, rfl, ⟨⟨rfl, ?_, ?_⟩, rfl⟩, rfl, rfl⟩
  · decide
  · decide

-- The first ping is answered by nothing for two waits, and the successor is given up.
theorem given_up_after_two : ¬ ∀ (env : P2pmEnv) (actor : P2pmdActor) (stages : List LoopStage),
    Runs.Meets (Vigil.step env) (Vigil.Patient env) (Vigil.start actor) stages := by
  intro all
  obtain ⟨vigil, ran, up, waits, taken⟩ := sample_silence_reached
  have patient := Runs.meets_at _ _ _ vigil sampleSilence .follows ran taken
    (all sampleSlowEnv (sampleTimedOut .member (-6000)) (sampleSilence ++ [.follows]))
  have three := patient up
  omega

end Synergy
