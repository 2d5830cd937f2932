import Synergy.Postings
import Synergy.Tokens
import Synergy.Lib.Run

set_option autoImplicit false

namespace Synergy

-- A message of a client call, and what comes through ts_tsd_pipe while the daemon handles it.
structure Arrival where
  client : Identity
  ts : Ts
  call : Call
  chunks : List Chunk

-- clients (the senders, by ticket) and sent are ghost.
structure Daemon where
  self : Tsd
  clients : List Identity
  sent : List Out

def Daemon.start (endpoint : Bytes) (replicationFactor : UInt32) (spaces : List SngNamespace) : Daemon :=
  { self := tsdCreate endpoint replicationFactor spaces, clients := [], sent := [] }

def Arrival.input (arrival : Arrival) : Input :=
  { frames := ⟨arrival.client.chars, true⟩ :: arrival.call.frames arrival.ts, rcvmore := false, chunks := arrival.chunks }

def Daemon.step (env : Platform) (daemon : Daemon) (arrival : Arrival) : Option Daemon :=
  match handler env daemon.self arrival.ts.isLocal daemon.clients.length arrival.input with
  | .ok handled =>
      some { self := handled.self, clients := daemon.clients ++ [arrival.client], sent := daemon.sent ++ handled.sent }
  | .error _ => none

-- A round of tsd_listen: a client's message, or a token of another daemon that opens or closes a space.
inductive Turn where
  | receives (arrival : Arrival)
  | activates (tk : GenericToken)
  | decomissions (tk : GenericToken)

def Daemon.heard (daemon : Daemon) : Except Stop (Tsd × List Out) → Option Daemon
  | .ok (self, sent) => some { self := self, clients := daemon.clients, sent := daemon.sent ++ sent }
  | .error _ => none

def Daemon.turn (env : Platform) (daemon : Daemon) : Turn → Option Daemon
  | .receives arrival => daemon.step env arrival
  | .activates tk => daemon.heard (connectTokenNext env daemon.self tk)
  | .decomissions tk => daemon.heard (termTokenNext daemon.self tk)

theorem step_served (env : Platform) (daemon next : Daemon) (arrival : Arrival)
    (taken : daemon.step env arrival = some next) :
    ∃ handled, Served env daemon.self arrival.ts arrival.client daemon.clients.length arrival.call [] arrival.chunks handled ∧
      next = { self := handled.self, clients := daemon.clients ++ [arrival.client], sent := daemon.sent ++ handled.sent } := by
  unfold Daemon.step at taken
  split at taken
  · rename_i handled done
    refine ⟨handled, ?_, (Option.some.inj taken).symm⟩
    apply handler_call env daemon.self arrival.ts arrival.client daemon.clients.length arrival.call [] false arrival.chunks handled
    simpa only [Arrival.input, List.append_nil] using done
  · cases taken

def Arrival.args (arrival : Arrival) (ticket : Nat) : HandlerArg :=
  ⟨.str arrival.client.chars, arrival.call.command, arrival.ts.isLocal, ticket⟩

theorem step_space (env : Platform) (daemon next : Daemon) (arrival : Arrival) (spaceName : Bytes) (after : TsdElement)
    (taken : daemon.step env arrival = some next) (found : next.self.spaceTable spaceName = some after) :
    ∃ before, daemon.self.spaceTable spaceName = some before ∧
      ((after = before ∧ (arrival.ts.tsname.chars = spaceName → arrival.call.command ≠ .tsConnect ∧ before.isActivated = false)) ∨
        (arrival.ts.tsname.chars = spaceName ∧ (arrival.call.command = .tsConnect ∨ before.isActivated = true) ∧
          ∃ bytes rest acted, arrival.call.payload arrival.ts.isLocal arrival.chunks = .ok (bytes, rest) ∧
            arrival.call.act env daemon.self (arrival.args daemon.clients.length) before bytes = .ok acted ∧
            after = acted.space)) := by
  obtain ⟨handled, served, same⟩ := step_served env daemon next arrival taken
  subst same
  cases served with
  | refused closed => exact ⟨after, found, Or.inl ⟨rfl, fun here => closed after (here ▸ found)⟩⟩
  | acted space bytes rest acted there active payload done =>
      obtain ⟨rfl, same⟩ | ⟨elsewhere, kept⟩ := update_at _ _ _ _ _ found
      · exact ⟨space, there, Or.inr ⟨rfl, active, bytes, rest, acted, payload, done, same.symm⟩⟩
      · exact ⟨after, kept, Or.inl ⟨rfl, fun same => absurd same elsewhere⟩⟩

-- All that a token changes in a space.
def TsdElement.Signalled (before after : TsdElement) : Prop :=
  ∃ direct requests active,
    after = { before with directEndpoint := direct, connectRequests := requests, isActivated := active }

theorem update_signalled (table : Bytes → Option TsdElement) (name spaceName : Bytes) (element left after : TsdElement)
    (there : table name = some element) (signalled : element.Signalled left)
    (found : Function.update table name (some left) spaceName = some after) :
    ∃ before, table spaceName = some before ∧ before.Signalled after := by
  obtain ⟨rfl, rfl⟩ | ⟨_, kept⟩ := update_at table name spaceName left after found
  · exact ⟨element, there, signalled⟩
  · exact ⟨after, kept, _, _, _, rfl⟩

theorem connect_token_space (env : Platform) (self next : Tsd) (tk : GenericToken) (sent : List Out) (spaceName : Bytes)
    (after : TsdElement) (done : connectTokenNext env self tk = .ok (next, sent)) (found : next.spaceTable spaceName = some after) :
    ∃ before, self.spaceTable spaceName = some before ∧ before.Signalled after := by
  obtain ⟨name, _, done⟩ := bind_ok _ _ _ done
  cases there : self.spaceTable name with
  | none =>
      simp only [there] at done
      cases done
      exact ⟨after, found, _, _, _, rfl⟩
  | some element =>
      simp only [there] at done
      split at done
      · cases done
        exact ⟨after, found, _, _, _, rfl⟩
      · split at done
        · cases done
        · obtain ⟨answers, _, done⟩ := bind_ok _ _ _ done
          cases done
          refine update_signalled self.spaceTable name spaceName element _ after there ?_ found
          split <;> exact ⟨_, _, _, rfl⟩

theorem term_token_space (self next : Tsd) (tk : GenericToken) (sent : List Out) (spaceName : Bytes) (after : TsdElement)
    (done : termTokenNext self tk = .ok (next, sent)) (found : next.spaceTable spaceName = some after) :
    ∃ before, self.spaceTable spaceName = some before ∧ before.Signalled after := by
  obtain ⟨name, _, done⟩ := bind_ok _ _ _ done
  cases there : self.spaceTable name with
  | none =>
      simp only [there] at done
      cases done
      exact ⟨after, found, _, _, _, rfl⟩
  | some element =>
      simp only [there] at done
      cases done
      exact update_signalled self.spaceTable name spaceName element _ after there ⟨_, _, _, rfl⟩ found

theorem heard_space (daemon next : Daemon) (result : Except Stop (Tsd × List Out)) (spaceName : Bytes)
    (space : ∀ self sent after, result = .ok (self, sent) → self.spaceTable spaceName = some after →
      ∃ before, daemon.self.spaceTable spaceName = some before ∧ before.Signalled after)
    (taken : daemon.heard result = some next) :
    next.clients = daemon.clients ∧ ∀ after, next.self.spaceTable spaceName = some after →
      ∃ before, daemon.self.spaceTable spaceName = some before ∧ before.Signalled after := by
  cases result with
  | error stop => cases taken
  | ok heard =>
      cases taken
      exact ⟨rfl, fun after found => space heard.1 heard.2 after rfl found⟩

theorem created_space (endpoint : Bytes) (replicationFactor : UInt32) (spaces : List SngNamespace) (spaceName : Bytes)
    (space : TsdElement) (found : (tsdCreate endpoint replicationFactor spaces).spaceTable spaceName = some space) :
    ∃ config ∈ spaces, config.name = spaceName ∧ space = createElement config := by
  suffices general : ∀ (table : Bytes → Option TsdElement),
      (∀ space, table spaceName = some space → ∃ config ∈ spaces, config.name = spaceName ∧ space = createElement config) →
      ∀ rest ⊆ spaces, rest.foldl (fun (table : Bytes → Option TsdElement) config =>
        Function.update table config.name (some (createElement config))) table spaceName = some space →
        ∃ config ∈ spaces, config.name = spaceName ∧ space = createElement config from
    general (fun _ => none) (by simp) spaces (List.Subset.refl _) found
  intro table known rest
  induction rest generalizing table with
  | nil => exact fun _ found => known space found
  | cons config rest ih =>
      intro inside found
      refine ih _ (fun other there => ?_) (fun other member => inside (by simp [member])) found
      obtain ⟨here, same⟩ | ⟨_, before⟩ := update_at table config.name spaceName (createElement config) other there
      · exact ⟨config, inside (by simp), here, same.symm⟩
      · exact known other before

-- What the calls a space gets keep, and the tokens; the number is that of the messages the daemon has handled.
structure KeptByCalls (env : Platform) (allowed : Call → Prop) (inv : Nat → TsdElement → Prop) : Prop where
  later : ∀ count space, inv count space → inv (count + 1) space
  signals : ∀ count before after, before.Signalled after → inv count before → inv count after
  acts : ∀ self (args : HandlerArg) (clientid : Identity) call space bytes acted, allowed call →
    args.clientid = .str clientid.chars → args.action = call.command → (call.command = .tsConnect ∨ space.isActivated = true) →
    inv args.ticket space → call.act env self args space bytes = .ok acted → inv (args.ticket + 1) acted.space

def Daemon.SpaceHolds (spaceName : Bytes) (inv : Nat → TsdElement → Prop) (daemon : Daemon) : Prop :=
  ∀ space, daemon.self.spaceTable spaceName = some space → inv daemon.clients.length space

theorem step_holds (env : Platform) (spaceName : Bytes) (allowed : Call → Prop) (inv : Nat → TsdElement → Prop)
    (kept : KeptByCalls env allowed inv) (daemon : Daemon) (arrival : Arrival) (next : Daemon)
    (permitted : arrival.ts.tsname.chars = spaceName → allowed arrival.call) (holds : daemon.SpaceHolds spaceName inv)
    (taken : daemon.step env arrival = some next) : next.SpaceHolds spaceName inv := by
  intro after found
  obtain ⟨before, there, change⟩ := step_space env daemon next arrival spaceName after taken found
  obtain ⟨handled, _, same⟩ := step_served env daemon next arrival taken
  have count : next.clients.length = daemon.clients.length + 1 := by simp [same]
  rw [count]
  rcases change with ⟨unchanged, _⟩ | ⟨here, active, bytes, rest, acted, _, done, result⟩
  · exact unchanged ▸ kept.later _ _ (holds before there)
  · rw [result]
    exact kept.acts daemon.self (arrival.args daemon.clients.length) arrival.client arrival.call before bytes acted
      (permitted here) rfl rfl active (holds before there) done

-- The turn brings the space no other call than those allowed.
def Turn.Only (spaceName : Bytes) (allowed : Call → Prop) : Turn → Prop
  | .receives arrival => arrival.ts.tsname.chars = spaceName → allowed arrival.call
  | .activates _ => True
  | .decomissions _ => True

instance (spaceName : Bytes) (allowed : Call → Prop) [DecidablePred allowed] (turn : Turn) : Decidable (turn.Only spaceName allowed) :=
  match turn with
  | .receives arrival => inferInstanceAs (Decidable (arrival.ts.tsname.chars = spaceName → allowed arrival.call))
  | .activates _ => isTrue trivial
  | .decomissions _ => isTrue trivial

theorem turn_holds (env : Platform) (spaceName : Bytes) (allowed : Call → Prop) (inv : Nat → TsdElement → Prop)
    (kept : KeptByCalls env allowed inv) (daemon : Daemon) (turn : Turn) (next : Daemon) (permitted : turn.Only spaceName allowed)
    (holds : daemon.SpaceHolds spaceName inv) (taken : daemon.turn env turn = some next) : next.SpaceHolds spaceName inv := by
  have signalled : (next.clients = daemon.clients ∧ ∀ after, next.self.spaceTable spaceName = some after →
      ∃ before, daemon.self.spaceTable spaceName = some before ∧ before.Signalled after) → next.SpaceHolds spaceName inv := by
    rintro ⟨count, spaces⟩ after found
    obtain ⟨before, there, change⟩ := spaces after found
    rw [count]
    exact kept.signals _ before after change (holds before there)
  cases turn with
  | receives arrival => exact step_holds env spaceName allowed inv kept daemon arrival next permitted holds taken
  | activates tk =>
      exact signalled (heard_space daemon next _ spaceName
        (fun self sent after done found => connect_token_space env daemon.self self tk sent spaceName after done found) taken)
  | decomissions tk =>
      exact signalled (heard_space daemon next _ spaceName
        (fun self sent after done found => term_token_space daemon.self self tk sent spaceName after done found) taken)

theorem start_holds (endpoint : Bytes) (replicationFactor : UInt32) (spaces : List SngNamespace) (spaceName : Bytes)
    (inv : Nat → TsdElement → Prop) (created : ∀ config ∈ spaces, config.name = spaceName → inv 0 (createElement config)) :
    (Daemon.start endpoint replicationFactor spaces).SpaceHolds spaceName inv := by
  intro space found
  obtain ⟨config, member, named, same⟩ := created_space endpoint replicationFactor spaces spaceName space found
  exact same ▸ created config member named

theorem run_holds (env : Platform) (spaceName : Bytes) (allowed : Call → Prop) (inv : Nat → TsdElement → Prop)
    (kept : KeptByCalls env allowed inv) (start daemon : Daemon) (turns : List Turn)
    (initial : start.SpaceHolds spaceName inv) (only : ∀ turn ∈ turns, turn.Only spaceName allowed)
    (ran : Runs.run (Daemon.turn env) start turns = some daemon) : daemon.SpaceHolds spaceName inv :=
  Runs.run_guarded_invariant (Daemon.turn env) (fun _ turn => turn.Only spaceName allowed) (Daemon.SpaceHolds spaceName inv)
    (fun daemon turn next holds permitted => turn_holds env spaceName allowed inv kept daemon turn next permitted holds)
    start daemon turns initial (Runs.meets_of_forall _ _ _ _ fun turn member _ => only turn member) ran

theorem step_keeps_spaces (env : Platform) (daemon next : Daemon) (arrival : Arrival) (spaceName : Bytes)
    (taken : daemon.step env arrival = some next) (missing : next.self.spaceTable spaceName = none) :
    daemon.self.spaceTable spaceName = none := by
  obtain ⟨handled, served, same⟩ := step_served env daemon next arrival taken
  subst same
  cases served with
  | refused closed => exact missing
  | acted space bytes rest acted there active payload done =>
      by_cases here : arrival.ts.tsname.chars = spaceName
      · subst here
        simp at missing
      · simpa only [Function.update_of_ne (Ne.symm here)] using missing

-- A daemon with one space that is active from the start, and its clients, for runs on fixed inputs.
def samplePlatform : Platform := { host := .little, regcomp := fun _ => none, connects := fun _ => true }

def sampleSpaces : List SngNamespace :=
  [{ name := [115], directEndpoint := List.replicate 256 0, tsMode := .master, tsdMode := .direct }]

def sampleStart : Daemon := Daemon.start [101] 1 sampleSpaces

def sampleName : Name := ⟨[97], by decide⟩
def sampleSpaceName : SpaceName := ⟨⟨[115], by decide⟩, by decide⟩
def sampleChunk : Chunk := ⟨0, 1, [7], by decide⟩
def otherName : Name := ⟨[98], by decide⟩
def samplePayload : Payload := ⟨[7], by decide, by decide⟩

theorem sample_single : ∀ config ∈ sampleSpaces, config.name = [115] → config.tsMode ≠ .p2p := by decide

def sampleClient : Identity := ⟨⟨[67], by decide⟩, by decide⟩
def otherClient : Identity := ⟨⟨[68], by decide⟩, by decide⟩

def sampleTurn (client : Identity) (isLocal : Bool) (call : Call) : Turn :=
  .receives
    { client := client
      ts := { host := .big, isLocal := isLocal, tsname := sampleSpaceName }
      call := call
      chunks := if isLocal then [sampleChunk] else [] }

end Synergy
