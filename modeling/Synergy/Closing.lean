import Synergy.Origins

set_option autoImplicit false

namespace Synergy

-- A round of tsd_listen with anything at all: a message on one of the two sockets, or a token with what its unwritten byte holds.
inductive Round where
  | message (isLocal : Bool) (input : Input)
  | token (stray : UInt8) (tk : GenericToken)

-- shutOut is ghost: the requests that were pending when the space was deactivated.
structure Listener where
  self : Tsd
  messages : Nat
  sent : List Out
  shutOut : List BlockingRequest

def Listener.start (endpoint : Bytes) (replicationFactor : UInt32) (spaces : List SngNamespace) : Listener :=
  { self := tsdCreate endpoint replicationFactor spaces, messages := 0, sent := [], shutOut := [] }

def TsdElement.pending (space : TsdElement) : List BlockingRequest := space.namedQueueRequests ++ space.bcastQueueRequests

def shutOutBy (before after : Option TsdElement) : List BlockingRequest :=
  match before, after with
  | some before, some after => if before.isActivated ∧ !after.isActivated then before.pending else []
  | _, _ => []

def Listener.after (spaceName : Bytes) (listener : Listener) (messages : Nat) (self : Tsd) (sent : List Out) : Listener :=
  { self := self
    messages := messages
    sent := listener.sent ++ sent
    shutOut := listener.shutOut ++ shutOutBy (listener.self.spaceTable spaceName) (self.spaceTable spaceName) }

def Listener.step (env : Platform) (spaceName : Bytes) (listener : Listener) : Round → Option Listener
  | .message isLocal input =>
      match handler env listener.self isLocal listener.messages input with
      | .ok handled => some (listener.after spaceName (listener.messages + 1) handled.self handled.sent)
      | .error _ => none
  | .token stray tk =>
      match tokenHandler env stray listener.self tk with
      | .ok (self, sent) => some (listener.after spaceName listener.messages self sent)
      | .error _ => none

structure TsdElement.Bare (space : TsdElement) : Prop where
  named : space.namedQueue = []
  bcast : space.bcastQueue = []
  namedRequests : space.namedQueueRequests = []
  bcastRequests : space.bcastQueueRequests = []

def Dismissed (env : Platform) (sent : List Out) (request : BlockingRequest) : Prop :=
  ∃ message, sendTerm env request = .ok message ∧ message <:+: sent

structure Listener.HoldsNothing (env : Platform) (spaceName : Bytes) (listener : Listener) : Prop where
  bare : ∀ space, listener.self.spaceTable spaceName = some space → space.isActivated = false → space.Bare
  told : ∀ request ∈ listener.shutOut, Dismissed env listener.sent request

-- A termination token that finds the space active finds nothing in it.
def Round.FindsNothing (spaceName : Bytes) (listener : Listener) : Round → Prop
  | .message _ _ => True
  | .token _ tk => tk.id = 1 → blockString tk.buf1 = .ok spaceName →
      ∀ space, listener.self.spaceTable spaceName = some space → space.isActivated = true → space.Bare

-- What a handler other than those of TsConnect and TsTerm leaves of a space.
structure TsdElement.StaysOpen (before after : TsdElement) : Prop where
  active : after.isActivated = before.isActivated
  bcast : before.bcastQueue = [] → after.bcastQueue = []

theorem stays_open_same (space : TsdElement) : space.StaysOpen space := ⟨rfl, id⟩

-- What becomes of a space that a message is dispatched to.
inductive Left (env : Platform) (before after : TsdElement) (sent : List Out) : Prop where
  | active (is : after.isActivated = true) (bcast : before.bcastQueue = [] → after.bcastQueue = [])
  | shut (bare : after.Bare) (told : ∀ request ∈ before.pending, Dismissed env sent request)
  | same (inactive : before.isActivated = false) (named : after.namedQueue = before.namedQueue)
      (bcast : after.bcastQueue = before.bcastQueue) (namedRequests : after.namedQueueRequests = before.namedQueueRequests)
      (bcastRequests : after.bcastQueueRequests = before.bcastQueueRequests)

theorem match_stays_open (env : Platform) (self : Tsd) (space after : TsdElement) (tuple : SngTuple) (action : TupleCommand) (rt : Int)
    (sent : List Out) (other : action ≠ .tsBCastWrite)
    (done : matchBlockingRequests env self space tuple action = .ok (rt, after, sent)) : space.StaysOpen after := by
  have appended : ∀ matched : TsdElement, matched.StaysOpen (matched.addEnd action tuple) := by
    intro matched
    rw [TsdElement.addEnd, if_neg other]
    exact ⟨rfl, id⟩
  have requeued : ∀ requests history, space.StaysOpen { space.setOpQueue action requests with history := history } := by
    intro requests history
    rw [TsdElement.setOpQueue, if_neg other]
    exact ⟨rfl, id⟩
  have both : ∀ requests history,
      space.StaysOpen (({ space.setOpQueue action requests with history := history } : TsdElement).addEnd action tuple) := by
    intro requests history
    have first := requeued requests history
    have second := appended { space.setOpQueue action requests with history := history }
    exact ⟨second.active.trans first.active, fun empty => second.bcast (first.bcast empty)⟩
  unfold matchBlockingRequests at done
  cases queue : space.opQueue action with
  | none =>
      simp only [queue] at done
      cases done
      exact stays_open_same space
  | some requests =>
      simp only [queue] at done
      obtain ⟨⟨state, finished⟩, _, done⟩ := bind_ok _ _ _ done
      split at done
      · cases done
        exact requeued _ _
      · split at done
        · cases done
          exact requeued _ _
        · split at done
          · obtain ⟨token, _, done⟩ := bind_ok _ _ _ done
            cases done
            exact both _ _
          · cases done
            exact both _ _

theorem put_stays_open (env : Platform) (self : Tsd) (args : HandlerArg) (space : TsdElement) (name data : Bytes) (acted : Acted)
    (other : args.action ≠ .tsBCastWrite) (done : putTuple env self args space name data = .ok acted) :
    space.StaysOpen acted.space := by
  unfold putTuple at done
  dsimp only at done
  split at done
  · cases done
    exact ⟨rfl, id⟩
  · obtain ⟨⟨rt, after, sent⟩, matched, done⟩ := bind_ok _ _ _ done
    cases done
    have kept := match_stays_open env self _ after _ _ rt sent other matched
    exact ⟨kept.active, kept.bcast⟩

theorem add_stays_open (env : Platform) (self : Tsd) (args : HandlerArg) (space : TsdElement) (anonId : UInt32) (data : Bytes)
    (received : Nat) (acted : Acted) (other : args.action ≠ .tsBCastWrite)
    (done : addTuple env self args space anonId data received = .ok acted) : space.StaysOpen acted.space := by
  unfold addTuple at done
  dsimp only at done
  split at done
  · cases done
    exact ⟨rfl, id⟩
  · obtain ⟨⟨rt, after, sent⟩, matched, done⟩ := bind_ok _ _ _ done
    cases done
    have kept := match_stays_open env self _ after _ _ rt sent other matched
    exact ⟨kept.active, kept.bcast⟩

theorem write_handler_stays_open (env : Platform) (self : Tsd) (args : HandlerArg) (space : TsdElement) (input later : Input)
    (acted : Acted) (other : args.action ≠ .tsBCastWrite)
    (done : namedQueueWriteHandler env self args space input = .ok (acted, later)) : space.StaysOpen acted.space := by
  unfold namedQueueWriteHandler at done
  by_cases puts : args.action = .tsPut
  · rw [if_pos puts] at done
    obtain ⟨⟨name, input1⟩, _, done⟩ := bind_ok _ _ _ done
    dsimp only at done
    split at done
    · obtain ⟨⟨data, input2⟩, _, done⟩ := bind_ok _ _ _ done
      obtain ⟨before, accepted, done⟩ := bind_ok _ _ _ done
      rw [safe_return_same before acted _ later done]
      exact put_stays_open env self args space _ _ before other accepted
    · obtain ⟨⟨len, input2⟩, _, done⟩ := bind_ok _ _ _ done
      dsimp only at done
      split at done
      · rw [safe_return_same _ acted _ later done]
        exact stays_open_same space
      · obtain ⟨⟨data, received, input3⟩, _, done⟩ := bind_ok _ _ _ done
        obtain ⟨before, accepted, done⟩ := bind_ok _ _ _ done
        rw [safe_return_same before acted _ later done]
        exact put_stays_open env self args space _ _ before other accepted
  · rw [if_neg puts] at done
    obtain ⟨⟨anonId, input1⟩, _, done⟩ := bind_ok _ _ _ done
    dsimp only at done
    split at done
    · rw [safe_return_same _ acted _ later done]
      exact stays_open_same space
    · split at done
      · obtain ⟨⟨data, input2⟩, _, done⟩ := bind_ok _ _ _ done
        obtain ⟨before, added, done⟩ := bind_ok _ _ _ done
        cases done
        exact add_stays_open env self args space _ _ _ _ other added
      · obtain ⟨⟨len, input2⟩, _, done⟩ := bind_ok _ _ _ done
        obtain ⟨⟨data, received, input3⟩, _, done⟩ := bind_ok _ _ _ done
        obtain ⟨before, added, done⟩ := bind_ok _ _ _ done
        rw [safe_return_same before acted _ later done]
        exact add_stays_open env self args space _ _ _ before other added

theorem enqueue_stays_open (space : TsdElement) (event : Event) (args : HandlerArg) (query : CString) :
    space.StaysOpen ((space.record event).enqueue args query) := by
  unfold TsdElement.enqueue
  dsimp only
  split
  · exact ⟨rfl, id⟩
  · exact ⟨rfl, id⟩

theorem fetch_stays_open (env : Platform) (args : HandlerArg) (space : TsdElement) (acted : Acted)
    (done : fetchTuple env args space = .ok acted) : space.StaysOpen acted.space := by
  obtain ⟨clientid, _, done⟩ := bind_ok _ _ _ done
  split at done
  · cases done
    exact enqueue_stays_open space _ args _
  · obtain ⟨reply, _, done⟩ := bind_ok _ _ _ done
    cases done
    exact ⟨rfl, id⟩

theorem read_stays_open (env : Platform) (args : HandlerArg) (space : TsdElement) (name : Bytes) (acted : Acted)
    (done : readTuple env args space name = .ok acted) : space.StaysOpen acted.space := by
  obtain ⟨clientid, _, done⟩ := bind_ok _ _ _ done
  split at done
  · cases done
    exact stays_open_same space
  · obtain ⟨handle, _, done⟩ := bind_ok _ _ _ done
    split at done
    · cases done
      exact enqueue_stays_open space _ args _
    · obtain ⟨order, _, done⟩ := bind_ok _ _ _ done
      by_cases differs : order ≠ 0
      · rw [if_pos differs] at done
        cases done
      · rw [if_neg differs] at done
        obtain ⟨reply, _, done⟩ := bind_ok _ _ _ done
        cases done
        exact ⟨rfl, id⟩

theorem bcast_read_stays_open (env : Platform) (args : HandlerArg) (space : TsdElement) (name : Bytes) (acted : Acted)
    (done : bcastReadTuple env args space name = .ok acted) : space.StaysOpen acted.space := by
  obtain ⟨clientid, _, done⟩ := bind_ok _ _ _ done
  split at done
  · cases done
    exact stays_open_same space
  · obtain ⟨handle, _, done⟩ := bind_ok _ _ _ done
    split at done
    · cases done
      exact ⟨rfl, id⟩
    · obtain ⟨reply, _, done⟩ := bind_ok _ _ _ done
      cases done
      exact stays_open_same space

theorem bcast_write_same (env : Platform) (args : HandlerArg) (space : TsdElement) (input later : Input) (acted : Acted)
    (done : bcastQueueWriteHandler env args space input = .ok (acted, later)) : acted.space = space := by
  obtain ⟨⟨name, input1⟩, _, done⟩ := bind_ok _ _ _ done
  dsimp only at done
  split at done
  · obtain ⟨item, _, done⟩ := bind_ok _ _ _ done
    cases done
  · obtain ⟨⟨len, input2⟩, _, done⟩ := bind_ok _ _ _ done
    dsimp only at done
    split at done
    · rw [safe_return_same _ acted _ later done]
    · obtain ⟨frame, _, done⟩ := bind_ok _ _ _ done
      cases done

theorem as_client_stays_open (env : Platform) (args : HandlerArg) (space : TsdElement) (input later : Input) (acted : Acted)
    (done : tsdAsClient env args space input = .ok (acted, later)) : space.StaysOpen acted.space := by
  obtain ⟨⟨endpoint, input1⟩, _, done⟩ := bind_ok _ _ _ done
  obtain ⟨⟨identity, input2⟩, _, done⟩ := bind_ok _ _ _ done
  dsimp only at done
  split at done
  · rw [safe_return_same _ acted _ later done]
    exact stays_open_same space
  · split at done
    · cases done
    · obtain ⟨handle, _, done⟩ := bind_ok _ _ _ done
      split at done
      · rw [safe_return_same _ acted _ later done]
        exact stays_open_same space
      · rw [safe_return_same _ acted _ later done]
        dsimp only
        split
        · by_cases isBcast : identity[1]? = some 'B'.toUInt8
          · rw [if_pos (by simp [isBcast])]
            refine ⟨rfl, fun empty => ?_⟩
            simp [zlistxDetach, isBcast, empty]
          · rw [if_neg (by simp [isBcast])]
            exact ⟨rfl, id⟩
        · exact stays_open_same space

theorem transmit_stays_open (env : Platform) (self : Tsd) (args : HandlerArg) (space : TsdElement) (input later : Input) (acted : Acted)
    (done : tsdAcceptTransmit env self args space input = .ok (acted, later)) : space.StaysOpen acted.space := by
  unfold tsdAcceptTransmit at done
  split at done
  · cases done
  · obtain ⟨⟨identity, input1⟩, _, done⟩ := bind_ok _ _ _ done
    obtain ⟨⟨len, input2⟩, _, done⟩ := bind_ok _ _ _ done
    dsimp only at done
    split at done
    · rw [safe_return_same _ acted _ later done]
      exact stays_open_same space
    · obtain ⟨⟨data, received, input3⟩, _, done⟩ := bind_ok _ _ _ done
      dsimp only at done
      split at done
      · cases done
      · split at done
        · obtain ⟨⟨rt, after, sent⟩, matched, done⟩ := bind_ok _ _ _ done
          rw [safe_return_same _ acted _ later done]
          have kept := match_stays_open env self _ after _ _ rt sent (by decide) matched
          exact ⟨kept.active, kept.bcast⟩
        · rw [safe_return_same _ acted _ later done]
          exact stays_open_same space

theorem connect_left (env : Platform) (self : Tsd) (args : HandlerArg) (space : TsdElement) (mode : UInt32) (acted : Acted)
    (done : connectMode env self args space mode = .ok acted) : Left env space acted.space acted.sent := by
  have kept : ∀ after : TsdElement, after.isActivated = space.isActivated → after.namedQueue = space.namedQueue →
      after.bcastQueue = space.bcastQueue → after.namedQueueRequests = space.namedQueueRequests →
      after.bcastQueueRequests = space.bcastQueueRequests → ∀ sent, Left env space after sent := by
    intro after active named bcast namedRequests bcastRequests sent
    cases was : space.isActivated with
    | true => exact Left.active (active.trans was) fun empty => bcast.trans empty
    | false => exact Left.same was named bcast namedRequests bcastRequests
  have opened : ∀ before : TsdElement, before.bcastQueue = space.bcastQueue →
      space.bcastQueue = [] → (sendActivateSignal self before).1.bcastQueue = [] := by
    intro before same empty
    rw [(activate_signal self before).1]
    exact same.trans empty
  obtain ⟨clientid, _, done⟩ := bind_ok _ _ _ done
  cases tsMode : space.tsMode with
  | master =>
      simp only [tsMode] at done
      split at done
      · obtain ⟨direct, _, done⟩ := bind_ok _ _ _ done
        cases done
        exact Left.active rfl (opened _ rfl)
      · split at done
        · cases done
          exact Left.active rfl (opened _ rfl)
        · cases done
          apply kept <;> rfl
  | worker =>
      simp only [tsMode] at done
      split at done
      · cases done
        apply kept <;> rfl
      · split at done
        · obtain ⟨direct, _, done⟩ := bind_ok _ _ _ done
          obtain ⟨endpoint, _, done⟩ := bind_ok _ _ _ done
          cases done
          apply kept <;> rfl
        · cases done
          apply kept <;> rfl
  | p2p =>
      simp only [tsMode] at done
      split at done
      · cases done
        apply kept <;> rfl
      · cases done
        apply kept <;> rfl

theorem terms_dismiss (env : Platform) (requests : List BlockingRequest) (messages : List (List Out))
    (done : requests.mapM (sendTerm env) = .ok messages) : ∀ request ∈ requests, Dismissed env messages.flatten request := by
  induction requests generalizing messages with
  | nil => exact fun request none => absurd none List.not_mem_nil
  | cons first later ih =>
      rw [List.mapM_cons] at done
      obtain ⟨message, told, done⟩ := bind_ok _ _ _ done
      obtain ⟨rest, others, done⟩ := bind_ok _ _ _ done
      cases done
      intro request member
      rw [List.flatten_cons]
      cases List.mem_cons.mp member with
      | inl same =>
          rw [same]
          exact ⟨message, told, (List.prefix_append message rest.flatten).isInfix⟩
      | inr inLater =>
          obtain ⟨own, sent, inside⟩ := ih rest others request inLater
          exact ⟨own, sent, inside.trans (List.suffix_append message rest.flatten).isInfix⟩

theorem dismissed_before (env : Platform) (first second : List Out) (request : BlockingRequest)
    (dismissed : Dismissed env first request) : Dismissed env (first ++ second) request := by
  obtain ⟨message, told, inside⟩ := dismissed
  exact ⟨message, told, inside.trans (List.prefix_append first second).isInfix⟩

theorem dismissed_after (env : Platform) (first second : List Out) (request : BlockingRequest)
    (dismissed : Dismissed env second request) : Dismissed env (first ++ second) request := by
  obtain ⟨message, told, inside⟩ := dismissed
  exact ⟨message, told, inside.trans (List.suffix_append first second).isInfix⟩

theorem term_left (env : Platform) (self : Tsd) (space : TsdElement) (acted : Acted)
    (done : termSpace env self space = .ok acted) : Left env space acted.space acted.sent := by
  have stopped := decomission_space self space
  unfold termSpace at done
  generalize sendDecomissionSignal self space = signal at done stopped
  obtain ⟨off, token⟩ := signal
  simp only at stopped
  subst stopped
  obtain ⟨⟨cleared, sent⟩, clear, done⟩ := bind_ok _ _ _ done
  cases done
  obtain ⟨named, namedTold, clear⟩ := bind_ok _ _ _ clear
  obtain ⟨bcast, bcastTold, clear⟩ := bind_ok _ _ _ clear
  by_cases stored : space.bcastQueue ≠ []
  · rw [if_pos stored] at clear
    cases clear
  · rw [if_neg stored] at clear
    cases clear
    refine Left.shut ⟨rfl, not_not.mp stored, rfl, rfl⟩ fun request member => ?_
    apply dismissed_after
    cases List.mem_append.mp member with
    | inl waits => exact dismissed_before env _ _ request (terms_dismiss env _ named namedTold request waits)
    | inr waits => exact dismissed_after env _ _ request (terms_dismiss env _ bcast bcastTold request waits)

theorem dispatch_left (env : Platform) (self : Tsd) (args : HandlerArg) (space : TsdElement) (input later : Input) (acted : Acted)
    (reached : args.action = .tsConnect ∨ space.isActivated = true)
    (done : dispatch env self args space input = .ok (acted, later)) : Left env space acted.space acted.sent := by
  have stays : args.action ≠ .tsConnect → space.StaysOpen acted.space → Left env space acted.space acted.sent :=
    fun other kept => Left.active (kept.active.trans (reached.resolve_left other)) kept.bcast
  have read : namedQueueReadHandler env args space input = .ok (acted, later) → space.StaysOpen acted.space :=
    fun done => by
      obtain ⟨⟨name, input1⟩, _, done⟩ := bind_ok _ _ _ done
      obtain ⟨before, answered, done⟩ := bind_ok _ _ _ done
      rw [safe_return_same before acted _ later done]
      exact read_stays_open env args space name before answered
  have fetch : namedQueueFetchHandler env args space input = .ok (acted, later) → space.StaysOpen acted.space :=
    fun done => by
      obtain ⟨before, answered, done⟩ := bind_ok _ _ _ done
      rw [safe_return_same before acted _ later done]
      exact fetch_stays_open env args space before answered
  have bcastRead : bcastQueueReadHandler env args space input = .ok (acted, later) → space.StaysOpen acted.space :=
    fun done => by
      obtain ⟨⟨name, input1⟩, _, done⟩ := bind_ok _ _ _ done
      obtain ⟨before, answered, done⟩ := bind_ok _ _ _ done
      rw [safe_return_same before acted _ later done]
      exact bcast_read_stays_open env args space name before answered
  have write := write_handler_stays_open env self args space input later acted
  have same : ∀ rt, (Except.ok ({ rt := rt, space := space, sent := [] }, input) : Except Stop (Acted × Input)) = .ok (acted, later) →
      space.StaysOpen acted.space := fun rt done => by
    cases done
    exact stays_open_same space
  unfold dispatch at done
  cases action : args.action with
  | tsConnect =>
      simp only [action] at done
      obtain ⟨⟨mode, input1⟩, _, done⟩ := bind_ok _ _ _ done
      obtain ⟨before, connected, done⟩ := bind_ok _ _ _ done
      rw [safe_return_same before acted _ later done]
      exact connect_left env self args space mode before connected
  | tsTerm =>
      simp only [action] at done
      obtain ⟨before, closed, done⟩ := bind_ok _ _ _ done
      cases done
      exact term_left env self space _ closed
  | tsExpect =>
      simp only [action] at done
      obtain ⟨⟨pattern, input1⟩, _, done⟩ := bind_ok _ _ _ done
      cases done
      exact stays (by simp [action]) ⟨rfl, id⟩
  | tsGetBlocking | tsReadBlocking | tsRead | tsGet =>
      simp only [action] at done
      exact stays (by simp [action]) (read done)
  | tsPeek | tsPop | tsPopBlocking | tsPeekBlocking =>
      simp only [action] at done
      exact stays (by simp [action]) (fetch done)
  | tsPut | tsAdd =>
      simp only [action] at done
      exact stays (by simp [action]) (write (by simp [action]) done)
  | tsBCastWrite =>
      simp only [action] at done
      exact stays (by simp [action]) (by rw [bcast_write_same env args space input later acted done]; exact stays_open_same space)
  | tsBCastRead | tsBCastReadBlocking =>
      simp only [action] at done
      exact stays (by simp [action]) (bcastRead done)
  | tsTransmit =>
      simp only [action] at done
      exact stays (by simp [action]) (transmit_stays_open env self args space input later acted done)
  | tsRequest | tsTake =>
      simp only [action] at done
      exact stays (by simp [action]) (as_client_stays_open env args space input later acted done)
  | tsDeposit | tsMigrate | tsReplicate | tsNone | tsEnf | tsAck | tsAnon =>
      simp only [action] at done
      exact stays (by simp [action]) (same _ done)

inductive Rounded (env : Platform) (self next : Tsd) (sent : List Out) : Prop where
  | unchanged (same : next.spaceTable = self.spaceTable)
  | reached (name : Bytes) (space after : TsdElement) (there : self.spaceTable name = some space)
      (left : Left env space after sent) (same : next.spaceTable = Function.update self.spaceTable name (some after))

theorem handler_rounded (env : Platform) (self : Tsd) (isLocal : Bool) (ticket : Nat) (input : Input) (handled : Handled)
    (done : handler env self isLocal ticket input = .ok handled) : Rounded env self handled.self handled.sent := by
  have refused : ∀ clientid here, handleSecondError env self isLocal ticket clientid here = .ok handled →
      Rounded env self handled.self handled.sent := by
    intro clientid here done
    obtain ⟨drained, _, done⟩ := bind_ok _ _ _ done
    cases done
    exact Rounded.unchanged rfl
  obtain ⟨⟨frame, input1⟩, _, done⟩ := bind_ok _ _ _ done
  obtain ⟨clientid, _, done⟩ := bind_ok _ _ _ done
  obtain ⟨⟨bufLen, input2⟩, _, done⟩ := bind_ok _ _ _ done
  dsimp only at done
  split at done
  · exact refused _ _ done
  · obtain ⟨⟨frame, input3⟩, _, done⟩ := bind_ok _ _ _ done
    dsimp only at done
    split at done
    · exact refused _ _ done
    · rename_i space there
      obtain ⟨⟨code, input4⟩, _, done⟩ := bind_ok _ _ _ done
      dsimp only at done
      by_cases closed : code ≠ TupleCommand.tsConnect.code ∧ (!space.isActivated) = true
      · rw [if_pos closed] at done
        exact refused _ _ done
      · rw [if_neg closed] at done
        cases known : TupleCommand.ofCode code with
        | none =>
            simp only [known] at done
            cases done
            exact Rounded.unchanged rfl
        | some action =>
            simp only [known] at done
            obtain ⟨⟨acted, input5⟩, dispatched, done⟩ := bind_ok _ _ _ done
            cases done
            refine Rounded.reached _ space acted.space there (dispatch_left env self _ space _ _ acted ?_ dispatched) rfl
            by_cases connects : code = TupleCommand.tsConnect.code
            · rw [connects, of_code_code] at known
              exact Or.inl (Option.some.inj known).symm
            · right
              by_contra inactive
              exact closed ⟨connects, by simpa using inactive⟩

theorem shut_out_same (table : Option TsdElement) : shutOutBy table table = [] := by
  cases table with
  | none => rfl
  | some space =>
      rw [shutOutBy]
      by_cases active : space.isActivated = true
      · rw [if_neg (by simp [active])]
      · rw [if_neg (by simp [active])]

theorem shut_out_open (before : Option TsdElement) (after : TsdElement) (active : after.isActivated = true) :
    shutOutBy before (some after) = [] := by
  cases before with
  | none => rfl
  | some space =>
      rw [shutOutBy]
      rw [if_neg (by simp [active])]

theorem shut_out_pending (before after : TsdElement) : ∀ request ∈ shutOutBy (some before) (some after),
    before.isActivated = true ∧ after.isActivated = false ∧ request ∈ before.pending := by
  intro request member
  rw [shutOutBy] at member
  split at member
  · rename_i shut
    exact ⟨shut.1, by simpa using shut.2, member⟩
  · cases member

theorem holds_nothing_after (env : Platform) (spaceName : Bytes) (listener : Listener) (messages : Nat) (self : Tsd) (sent : List Out)
    (holds : listener.HoldsNothing env spaceName)
    (bare : ∀ space, self.spaceTable spaceName = some space → space.isActivated = false → space.Bare)
    (told : ∀ request ∈ shutOutBy (listener.self.spaceTable spaceName) (self.spaceTable spaceName), Dismissed env sent request) :
    (listener.after spaceName messages self sent).HoldsNothing env spaceName where
  bare := bare
  told := by
    intro request member
    cases List.mem_append.mp member with
    | inl earlier => exact dismissed_before env _ _ request (holds.told request earlier)
    | inr now => exact dismissed_after env _ _ request (told request now)

theorem message_holds_nothing (env : Platform) (spaceName : Bytes) (listener : Listener) (messages : Nat) (self : Tsd)
    (sent : List Out) (holds : listener.HoldsNothing env spaceName) (rounded : Rounded env listener.self self sent) :
    (listener.after spaceName messages self sent).HoldsNothing env spaceName := by
  cases rounded with
  | unchanged same =>
      apply holds_nothing_after env spaceName listener messages self sent holds
      · rw [same]
        exact holds.bare
      · rw [same, shut_out_same]
        exact fun request none => absurd none List.not_mem_nil
  | reached name space after there left same =>
      by_cases here : name = spaceName
      · subst here
        have now : self.spaceTable name = some after := by rw [same, Function.update_self]
        apply holds_nothing_after env name listener messages self sent holds
        · intro other found inactive
          rw [now] at found
          cases found
          cases left with
          | active is =>
              rw [is] at inactive
              cases inactive
          | shut bare told => exact bare
          | same was named bcast namedRequests bcastRequests =>
              have before := holds.bare space there was
              exact ⟨named.trans before.named, bcast.trans before.bcast, namedRequests.trans before.namedRequests,
                bcastRequests.trans before.bcastRequests⟩
        · rw [now, there]
          intro request member
          obtain ⟨wasActive, inactive, waits⟩ := shut_out_pending space after request member
          cases left with
          | active is =>
              rw [is] at inactive
              cases inactive
          | shut bare told => exact told request waits
          | same was =>
              rw [was] at wasActive
              cases wasActive
      · have elsewhere : self.spaceTable spaceName = listener.self.spaceTable spaceName := by
          rw [same, Function.update_of_ne (Ne.symm here)]
        apply holds_nothing_after env spaceName listener messages self sent holds
        · rw [elsewhere]
          exact holds.bare
        · rw [elsewhere, shut_out_same]
          exact fun request none => absurd none List.not_mem_nil

theorem token_holds_nothing_iff (env : Platform) (spaceName : Bytes) (listener : Listener) (stray : UInt8) (tk : GenericToken)
    (self : Tsd) (sent : List Out) (tokens : List GenericToken) (holds : listener.HoldsNothing env spaceName)
    (taken : Taken listener.self tk self tokens) :
    (listener.after spaceName listener.messages self sent).HoldsNothing env spaceName ↔
      (Round.token stray tk).FindsNothing spaceName listener := by
  have kept : self.spaceTable spaceName = listener.self.spaceTable spaceName → tk.id ≠ 1 ∨ (∀ name, blockString tk.buf1 = .ok name →
      name = spaceName → listener.self.spaceTable spaceName = none) →
      ((listener.after spaceName listener.messages self sent).HoldsNothing env spaceName ↔
        (Round.token stray tk).FindsNothing spaceName listener) := by
    intro same other
    constructor
    · intro _ id named space found
      cases other with
      | inl different => exact absurd id different
      | inr missing =>
          rw [missing spaceName named rfl] at found
          cases found
    · intro _
      apply holds_nothing_after env spaceName listener _ self sent holds
      · rw [same]
        exact holds.bare
      · rw [same, shut_out_same]
        exact fun request none => absurd none List.not_mem_nil
  cases taken with
  | unknown name id named missing => exact kept rfl (Or.inl (by simp [id]))
  | duplicate name element id named there active => exact kept rfl (Or.inl (by simp [id]))
  | activates name element waiting id named there inactive room left =>
      by_cases here : name = spaceName
      · subst here
        refine ⟨fun _ one => absurd (id.symm.trans one) (by decide), fun _ => ?_⟩
        apply holds_nothing_after env name listener _ _ sent holds
        · intro space found shut
          simp only [Function.update_self, Option.some.injEq] at found
          rw [← found] at shut
          cases shut
        · dsimp only
          rw [Function.update_self, shut_out_open _ _ rfl]
          exact fun request none => absurd none List.not_mem_nil
      · exact kept (Function.update_of_ne (Ne.symm here) _ _) (Or.inl (by simp [id]))
  | dropped name id named missing =>
      refine kept rfl (Or.inr fun other block here => ?_)
      rw [named] at block
      cases block
      rw [← here]
      exact missing
  | decomissions name element id named there =>
      by_cases here : name = spaceName
      · subst here
        constructor
        · intro after _ _ space found _
          rw [there] at found
          cases found
          have left := after.bare _ (Function.update_self name _ _) rfl
          exact ⟨left.named, left.bcast, left.namedRequests, left.bcastRequests⟩
        · intro finds
          have bare : element.Bare := by
            cases active : element.isActivated with
            | true => exact finds id named element there active
            | false => exact holds.bare element there active
          apply holds_nothing_after env name listener _ _ sent holds
          · intro space found _
            simp only [Function.update_self, Option.some.injEq] at found
            rw [← found]
            exact ⟨bare.named, bare.bcast, bare.namedRequests, bare.bcastRequests⟩
          · dsimp only
            rw [Function.update_self, there]
            intro request member
            obtain ⟨_, _, waits⟩ := shut_out_pending element _ request member
            rw [TsdElement.pending, bare.namedRequests, bare.bcastRequests] at waits
            cases waits
      · refine kept (Function.update_of_ne (Ne.symm here) _ _) (Or.inr fun other block same => ?_)
        rw [named] at block
        cases block
        exact absurd same here
  | matched id => exact kept rfl (Or.inl (by simp [id]))
  | other id => exact kept rfl (Or.inl id.2.1)

theorem start_holds_nothing (env : Platform) (endpoint : Bytes) (replicationFactor : UInt32) (spaces : List SngNamespace)
    (spaceName : Bytes) : (Listener.start endpoint replicationFactor spaces).HoldsNothing env spaceName where
  bare := by
    intro space found _
    obtain ⟨config, _, _, same⟩ := created_space endpoint replicationFactor spaces spaceName space found
    rw [same]
    exact ⟨rfl, rfl, rfl, rfl⟩
  told := fun request none => absurd none List.not_mem_nil

theorem round_holds_nothing_iff (env : Platform) (spaceName : Bytes) (listener next : Listener) (round : Round)
    (holds : listener.HoldsNothing env spaceName) (taken : listener.step env spaceName round = some next) :
    next.HoldsNothing env spaceName ↔ round.FindsNothing spaceName listener := by
  cases round with
  | message isLocal input =>
      simp only [Listener.step] at taken
      split at taken
      · rename_i handled done
        cases taken
        exact ⟨fun _ => trivial, fun _ => message_holds_nothing env spaceName listener _ _ _ holds
          (handler_rounded env listener.self isLocal _ input handled done)⟩
      · cases taken
  | token stray tk =>
      simp only [Listener.step] at taken
      split at taken
      · rename_i self sent done
        cases taken
        exact token_holds_nothing_iff env spaceName listener stray tk self sent _ holds
          (token_handler_taken env stray listener.self self tk sent done)
      · cases taken

-- In a run of any messages and tokens a space that is not active holds nothing, and whoever was pending when it was shut has been
-- sent TsTerm, exactly as long as no termination token takes an active space that holds something.
theorem closed_space_holds_nothing (env : Platform) (endpoint : Bytes) (replicationFactor : UInt32) (spaces : List SngNamespace)
    (spaceName : Bytes) (rounds : List Round) :
    Runs.Throughout (Listener.step env spaceName) (Listener.HoldsNothing env spaceName)
        (Listener.start endpoint replicationFactor spaces) rounds ↔
      Runs.Meets (Listener.step env spaceName) (fun listener round => round.FindsNothing spaceName listener)
        (Listener.start endpoint replicationFactor spaces) rounds :=
  Runs.throughout_iff_meets (Listener.step env spaceName) (fun _ => True) (fun listener round => round.FindsNothing spaceName listener)
    (Listener.HoldsNothing env spaceName) (fun _ => True) (fun _ _ _ _ _ _ => trivial)
    (fun listener round next _ _ holds taken => round_holds_nothing_iff env spaceName listener next round holds taken)
    _ rounds (fun _ _ => trivial) trivial (start_holds_nothing env endpoint replicationFactor spaces spaceName)

-- A tuple is put, and the space is then shut by the ring.
def shutByRing : List Round :=
  [.message true
      { frames := ⟨sampleClient.chars, true⟩ ::
          (Call.tsInPut sampleName samplePayload).frames { host := .big, isLocal := true, tsname := sampleSpaceName }
        rcvmore := false
        chunks := [sampleChunk] },
    .token 0 (decomissionToken [102] [115])]

set_option maxRecDepth 20000 in
theorem tuple_left_in_closed_space :
    ¬ Runs.Throughout (Listener.step samplePlatform [115]) (Listener.HoldsNothing samplePlatform [115])
      (Listener.start [101] 1 sampleSpaces) shutByRing := by
  intro always
  have holds := (((always.2 _ rfl).2 _ rfl).bare _ rfl rfl).named
  cases holds

end Synergy
