import Synergy.Replies
import Synergy.Lib.Lobby

set_option autoImplicit false

namespace Synergy

-- A message that ends with a string: the request it answers, and the string.
def Out.answer : Out → Option (Nat × Bytes)
  | .frame _ ticket bytes false => if bytes.getLast? = some 0 then some (ticket, bytes.dropLast) else none
  | _ => none

def answersIn (sent : List Out) : List (Nat × Bytes) := sent.filterMap Out.answer

def answersTo (guests : List Nat) (sent : List Out) : List (Nat × Bytes) := (answersIn sent).filter fun answer => answer.1 ∈ guests

@[simp] theorem answers_in_nil : answersIn [] = [] := rfl

@[simp] theorem answers_in_append (first second : List Out) : answersIn (first ++ second) = answersIn first ++ answersIn second :=
  List.filterMap_append

@[simp] theorem answers_in_more (isLocal : Bool) (ticket : Nat) (bytes : Bytes) (later : List Out) :
    answersIn (.frame isLocal ticket bytes true :: later) = answersIn later := rfl

@[simp] theorem answers_in_token (tk : GenericToken) (later : List Out) : answersIn (.token tk :: later) = answersIn later := rfl

@[simp] theorem answers_in_word (env : Platform) (isLocal : Bool) (ticket : Nat) (word : UInt32) (later : List Out) :
    answersIn (sendUint32 env isLocal ticket word true :: later) = answersIn later := rfl

@[simp] theorem answers_in_relay (tk : GenericToken) : answersIn (relay tk) = [] := by
  unfold relay
  split
  · rfl
  · rfl

theorem answers_of_str (env : Platform) (isLocal : Bool) (ticket : Nat) (chars : Bytes) (outs : List Out)
    (sent : sendStr env isLocal ticket (.str chars) false = .ok outs) : answersIn outs = [(ticket, chars)] := by
  cases sent
  rw [answers_in_more, answersIn, List.filterMap_cons, Out.answer, List.getLast?_concat, if_pos rfl, List.dropLast_concat]
  rfl

-- A word whose last byte is not zero is no string.
theorem answers_of_word (env : Platform) (isLocal : Bool) (ticket : Nat) (word : UInt32)
    (nonzero : (p2pmSendUint32 env.host word).getLast? ≠ some 0) : answersIn [sendUint32 env isLocal ticket word false] = [] := by
  rw [answersIn, List.filterMap_cons, sendUint32, Out.answer, if_neg nonzero]
  rfl

theorem mode_err_nonzero (host : HostOrder) : (p2pmSendUint32 host tsModeErr).getLast? ≠ some 0 := by
  cases host with
  | little => decide
  | big => decide

theorem mode_block_nonzero (host : HostOrder) : (p2pmSendUint32 host tsModeBlock).getLast? ≠ some 0 := by
  cases host with
  | little => decide
  | big => decide

theorem answers_of_endpoint (env : Platform) (direct : Bytes) (request : BlockingRequest) (outs : List Out)
    (sent : sendEndpoint env direct request = .ok outs) : answersIn outs = [(request.ticket, cstr direct)] := by
  obtain ⟨out, told, sent⟩ := bind_ok _ _ _ sent
  obtain ⟨chars, _, told⟩ := bind_ok _ _ _ told
  obtain ⟨endpoint, read, sent⟩ := bind_ok _ _ _ sent
  obtain ⟨str, named, sent⟩ := bind_ok _ _ _ sent
  cases told
  cases sent
  unfold endpointStr at read
  split at read
  · cases read
    exact answers_of_str env request.isLocal request.ticket (cstr direct) str named
  · cases read

theorem answers_of_endpoints (env : Platform) (direct : Bytes) (requests : List BlockingRequest) (answers : List (List Out))
    (sent : requests.mapM (sendEndpoint env direct) = .ok answers) :
    answersIn answers.flatten = requests.map fun request => (request.ticket, cstr direct) := by
  induction requests generalizing answers with
  | nil =>
      cases sent
      rfl
  | cons request later ih =>
      rw [List.mapM_cons] at sent
      obtain ⟨first, here, sent⟩ := bind_ok _ _ _ sent
      obtain ⟨rest, there, sent⟩ := bind_ok _ _ _ sent
      cases sent
      rw [List.flatten_cons, answers_in_append, answers_of_endpoint env direct request first here, ih rest there]
      rfl

-- What a TsConnect does to a space in worker mode.
inductive WorkerConnect (args : HandlerArg) (space : TsdElement) (mode : UInt32) (acted : Acted) : Prop where
  | refused (asks : ¬ (mode = tsModeMaster ∨ mode = tsModeClient)) (same : acted.space = { space with isRequested := true })
      (answers : answersIn acted.sent = [])
  | answered (asks : mode = tsModeMaster ∨ mode = tsModeClient) (active : space.isActivated = true)
      (same : acted.space = { space with isRequested := true })
      (answers : answersIn acted.sent = [(args.ticket, cstr space.directEndpoint)])
  | waits (asks : mode = tsModeMaster ∨ mode = tsModeClient) (inactive : space.isActivated = false) (request : BlockingRequest)
      (ticket : request.ticket = args.ticket)
      (same : acted.space = { space with isRequested := true, connectRequests := space.connectRequests ++ [request] })
      (answers : answersIn acted.sent = [])

theorem worker_connect (env : Platform) (self : Tsd) (args : HandlerArg) (space : TsdElement) (mode : UInt32) (acted : Acted)
    (worker : space.tsMode = .worker) (done : connectMode env self args space mode = .ok acted) :
    WorkerConnect args space mode acted := by
  obtain ⟨out, told, done⟩ := bind_ok _ _ _ done
  obtain ⟨chars, _, told⟩ := bind_ok _ _ _ told
  cases told
  simp only [worker] at done
  split at done
  · rename_i other
    cases done
    refine WorkerConnect.refused (not_or.mpr other) (by simp only [worker]) ?_
    rw [answers_in_more]
    exact answers_of_word env args.isLocal args.ticket tsModeErr (mode_err_nonzero env.host)
  · rename_i asks
    have asks : mode = tsModeMaster ∨ mode = tsModeClient := by
      by_contra other
      exact asks (not_or.mp other)
    split at done
    · rename_i active
      obtain ⟨direct, read, done⟩ := bind_ok _ _ _ done
      obtain ⟨endpoint, named, done⟩ := bind_ok _ _ _ done
      cases done
      refine WorkerConnect.answered asks active (by simp only [worker]) ?_
      unfold endpointStr at read
      split at read
      · cases read
        rw [answers_in_more, answers_in_word]
        exact answers_of_str env args.isLocal args.ticket _ endpoint named
      · cases read
    · rename_i inactive
      cases done
      refine WorkerConnect.waits asks (by simpa using inactive) ⟨.null, args.clientid, args.action, mode.toNat, args.isLocal, args.ticket⟩
        rfl (by simp only [worker]) ?_
      rw [answers_in_more]
      exact answers_of_word env args.isLocal args.ticket tsModeBlock (mode_block_nonzero env.host)

-- What a TsConnect does to any space.
structure AnyConnect (args : HandlerArg) (space : TsdElement) (acted : Acted) : Prop where
  named : acted.space.namedQueueRequests = space.namedQueueRequests
  bcast : acted.space.bcastQueueRequests = space.bcastQueueRequests
  waiting : ∀ request ∈ acted.space.connectRequests, request ∈ space.connectRequests ∨ request.ticket = args.ticket
  answers : ∀ answer ∈ answersIn acted.sent, answer.1 = args.ticket

theorem word_answers (env : Platform) (isLocal : Bool) (ticket : Nat) (word : UInt32) :
    ∀ answer ∈ answersIn [sendUint32 env isLocal ticket word false], answer.1 = ticket := by
  intro answer member
  obtain ⟨out, only, is⟩ := List.mem_filterMap.mp member
  rw [List.mem_singleton.mp only, sendUint32, Out.answer] at is
  split at is
  · cases is
    rfl
  · cases is

theorem any_connect (env : Platform) (self : Tsd) (args : HandlerArg) (space : TsdElement) (mode : UInt32) (acted : Acted)
    (connected : connectMode env self args space mode = .ok acted) : AnyConnect args space acted := by
  obtain ⟨out, told, done⟩ := bind_ok _ _ _ connected
  obtain ⟨chars, _, told⟩ := bind_ok _ _ _ told
  cases told
  have one : ∀ word, ∀ answer ∈ answersIn [.frame args.isLocal args.ticket chars true,
      sendUint32 env args.isLocal args.ticket word false], answer.1 = args.ticket := word_answers env args.isLocal args.ticket
  have signal : ∀ (before : TsdElement) word, ∀ answer ∈ answersIn (.frame args.isLocal args.ticket chars true ::
      (sendActivateSignal self before).2 ++ [sendUint32 env args.isLocal args.ticket word false]), answer.1 = args.ticket := by
    intro before word
    unfold sendActivateSignal
    split
    · exact one word
    · exact one word
  cases tsMode : space.tsMode with
  | master =>
      simp only [tsMode] at done
      split at done
      · obtain ⟨direct, _, done⟩ := bind_ok _ _ _ done
        cases done
        rw [(activate_signal self _).1]
        exact ⟨rfl, rfl, fun request member => Or.inl member, signal _ _⟩
      · split at done
        · cases done
          rw [(activate_signal self _).1]
          exact ⟨rfl, rfl, fun request member => Or.inl member, signal _ _⟩
        · cases done
          exact ⟨rfl, rfl, fun request member => Or.inl member, one _⟩
  | worker =>
      cases worker_connect env self args space mode acted tsMode connected with
      | refused asks same answers =>
          obtain ⟨rt, after, sent⟩ := acted
          subst same
          refine ⟨rfl, rfl, fun request member => Or.inl member, fun answer member => ?_⟩
          rw [answers] at member
          cases member
      | answered asks active same answers =>
          obtain ⟨rt, after, sent⟩ := acted
          subst same
          refine ⟨rfl, rfl, fun request member => Or.inl member, fun answer member => ?_⟩
          rw [answers] at member
          rw [List.mem_singleton.mp member]
      | waits asks inactive request ticket same answers =>
          obtain ⟨rt, after, sent⟩ := acted
          subst same
          refine ⟨rfl, rfl, fun other member => ?_, fun answer member => ?_⟩
          · cases List.mem_append.mp member with
            | inl old => exact Or.inl old
            | inr new => exact Or.inr (by rw [List.mem_singleton.mp new, ticket])
          · rw [answers] at member
            cases member
  | p2p =>
      simp only [tsMode] at done
      split at done
      · cases done
        exact ⟨rfl, rfl, fun request member => Or.inl member, one _⟩
      · cases done
        exact ⟨rfl, rfl, fun request member => Or.inl member, one _⟩

theorem idle_term (env : Platform) (self : Tsd) (space : TsdElement) (acted : Acted) (named : space.namedQueueRequests = [])
    (bcast : space.bcastQueueRequests = []) (done : termSpace env self space = .ok acted) :
    ∃ history, acted.space = { space with
        namedQueue := []
        namedQueueRequests := []
        bcastQueueRequests := []
        isActivated := false
        history := history } ∧
      answersIn acted.sent = [] := by
  have stopped := decomission_space self space
  have token : answersIn (sendDecomissionSignal self space).2 = [] := by
    unfold sendDecomissionSignal
    split
    · rfl
    · rfl
  unfold termSpace at done
  generalize sendDecomissionSignal self space = signal at done stopped token
  obtain ⟨off, out⟩ := signal
  simp only at stopped token
  subst stopped
  obtain ⟨⟨cleared, sent⟩, clear, done⟩ := bind_ok _ _ _ done
  cases done
  simp only [tsTermClearRequests, named, bcast, List.mapM_nil, bind, Except.bind, pure, Except.pure] at clear
  split at clear
  · cases clear
  · cases clear
    refine ⟨_, rfl, ?_⟩
    rw [answers_in_append, token]
    rfl

inductive Opened (self : Tsd) (tk : GenericToken) (next : Tsd) (sent : List Out) : Prop where
  | ignored (same : next = self) (answers : answersIn sent = [])
      (open_ : ∀ name space, blockString tk.buf1 = .ok name → self.spaceTable name = some space → space.isActivated = true)
  | opened (name : Bytes) (space : TsdElement) (direct : Bytes) (named : blockString tk.buf1 = .ok name)
      (there : self.spaceTable name = some space) (inactive : space.isActivated = false)
      (same : next.spaceTable = Function.update self.spaceTable name (some { space with
        directEndpoint := direct
        isActivated := true
        connectRequests := if space.isRequested then [] else space.connectRequests }))
      (answers : answersIn sent =
        (if space.isRequested then space.connectRequests else []).map fun request => (request.ticket, cstr direct))

theorem connect_token_opened (env : Platform) (self next : Tsd) (tk : GenericToken) (sent : List Out)
    (done : connectTokenNext env self tk = .ok (next, sent)) : Opened self tk next sent := by
  obtain ⟨name, named, done⟩ := bind_ok _ _ _ done
  cases there : self.spaceTable name with
  | none =>
      simp only [there] at done
      cases done
      refine Opened.ignored rfl (answers_in_relay tk) fun other space block found => ?_
      rw [named] at block
      cases block
      rw [there] at found
      cases found
  | some space =>
      simp only [there] at done
      cases active : space.isActivated with
      | true =>
          rw [if_pos active] at done
          cases done
          refine Opened.ignored rfl rfl fun other element block found => ?_
          rw [named] at block
          cases block
          rw [there] at found
          cases found
          exact active
      | false =>
          rw [if_neg (by simp [active])] at done
          split at done
          · cases done
          · obtain ⟨answers, told, done⟩ := bind_ok _ _ _ done
            cases done
            refine Opened.opened name space (tk.buf2.take tk.len2 ++ space.directEndpoint.drop tk.len2) named there active ?_ ?_
            · by_cases asked : space.isRequested = true
              · simp only [if_pos asked]
              · simp only [if_neg asked]
            · rw [answers_in_append, answers_in_relay, List.append_nil]
              exact answers_of_endpoints env _ _ answers told

theorem term_token_shuts (self next : Tsd) (tk : GenericToken) (sent : List Out) (done : termTokenNext self tk = .ok (next, sent)) :
    ∃ name, blockString tk.buf1 = .ok name ∧ answersIn sent = [] ∧
      next.spaceTable = match self.spaceTable name with
        | none => self.spaceTable
        | some space => Function.update self.spaceTable name (some { space with isActivated := false }) := by
  obtain ⟨name, named, done⟩ := bind_ok _ _ _ done
  refine ⟨name, named, ?_⟩
  cases there : self.spaceTable name with
  | none =>
      simp only [there] at done
      cases done
      exact ⟨rfl, rfl⟩
  | some space =>
      simp only [there] at done
      cases done
      refine ⟨?_, rfl⟩
      split
      · rfl
      · rfl

-- A daemon, the TsConnects of one space in the order they came, and the lobby in which they wait.
structure Connections where
  daemon : Daemon
  guests : List Nat
  lobby : Lobbies.Lobby Nat Bytes

def Connections.start (spaceName : Bytes) (daemon : Daemon) : Connections where
  daemon := daemon
  guests := []
  lobby :=
    { place := (daemon.self.spaceTable spaceName).bind fun space => if space.isActivated then some (cstr space.directEndpoint) else none
      waiting := []
      shown := [] }

-- What a turn means to a space in worker mode: someone comes, the direct endpoint that is there next opens it, or it is shut.
def Turn.event (spaceName : Bytes) (daemon next : Daemon) : Turn → Option (Lobbies.Event Nat Bytes)
  | .receives arrival =>
      if arrival.ts.tsname.chars = spaceName then
        match arrival.call with
        | .tsOpen mode => if mode = tsModeMaster ∨ mode = tsModeClient then some (.comes daemon.clients.length) else none
        | .tsClose => some .shuts
        | _ => none
      else none
  | .activates tk =>
      if (blockString tk.buf1).toOption = some spaceName then
        (next.self.spaceTable spaceName).map fun space => .opens (cstr space.directEndpoint)
      else none
  | .decomissions tk => if (blockString tk.buf1).toOption = some spaceName then some .shuts else none

theorem event_elsewhere (spaceName : Bytes) (daemon next : Daemon) (arrival : Arrival) (other : arrival.ts.tsname.chars ≠ spaceName) :
    (Turn.receives arrival).event spaceName daemon next = none := if_neg other

def Connections.after (spaceName : Bytes) (state : Connections) (next : Daemon) (turn : Turn) : Connections :=
  match turn.event spaceName state.daemon next with
  | none => { daemon := next, guests := state.guests ++ [], lobby := state.lobby }
  | some event => { daemon := next, guests := state.guests ++ event.guests, lobby := state.lobby.step event }

def Connections.step (env : Platform) (spaceName : Bytes) (state : Connections) (turn : Turn) : Option Connections :=
  (state.daemon.turn env turn).map fun next => state.after spaceName next turn

-- The turn is a TsConnect, a TsTerm or a token.
def Turn.Connecting : Turn → Prop
  | .receives arrival => (∃ mode, arrival.call = .tsOpen mode) ∨ arrival.call = .tsClose
  | _ => True

-- The space holds who waits in the lobby, and its direct endpoint is the place.
structure Hosts (lobby : Lobbies.Lobby Nat Bytes) (space : TsdElement) : Prop where
  worker : space.tsMode = .worker
  place : lobby.place = if space.isActivated then some (cstr space.directEndpoint) else none
  waiting : lobby.waiting = space.connectRequests.map BlockingRequest.ticket
  asked : space.connectRequests ≠ [] → space.isRequested = true

-- Nobody waits for a tuple in the space, and no request for another space has come here.
structure Idle (spaceName : Bytes) (guests : List Nat) (count : Nat) (name : Bytes) (space : TsdElement) : Prop where
  named : space.namedQueueRequests = []
  bcast : space.bcastQueueRequests = []
  elsewhere : name ≠ spaceName → ∀ request ∈ space.connectRequests, request.ticket ∉ guests
  older : ∀ request ∈ space.connectRequests, request.ticket < count

structure Connections.Holds (spaceName : Bytes) (state : Connections) : Prop where
  shown : answersTo state.guests state.daemon.sent = state.lobby.shown
  order : state.lobby.guests = state.guests
  empties : state.lobby.Empties
  distinct : state.guests.Nodup
  older : ∀ guest ∈ state.guests, guest < state.daemon.clients.length
  answered : ∀ answer ∈ answersIn state.daemon.sent, answer.1 < state.daemon.clients.length
  idle : ∀ name space, state.daemon.self.spaceTable name = some space →
    Idle spaceName state.guests state.daemon.clients.length name space
  hosts : ∃ space, state.daemon.self.spaceTable spaceName = some space ∧ Hosts state.lobby space

theorem answers_to_append (guests : List Nat) (first second : List Out) :
    answersTo guests (first ++ second) = answersTo guests first ++ answersTo guests second := by
  rw [answersTo, answers_in_append, List.filter_append]
  rfl

theorem answers_to_none (guests : List Nat) (sent : List Out) (others : ∀ answer ∈ answersIn sent, answer.1 ∉ guests) :
    answersTo guests sent = [] :=
  List.filter_eq_nil_iff.mpr fun answer member => by simpa using others answer member

theorem answers_to_all (guests : List Nat) (sent : List Out) (ours : ∀ answer ∈ answersIn sent, answer.1 ∈ guests) :
    answersTo guests sent = answersIn sent :=
  List.filter_eq_self.mpr fun answer member => by simpa using ours answer member

theorem answers_to_later (guests new : List Nat) (sent : List Out) (count : Nat) (older : ∀ answer ∈ answersIn sent, answer.1 < count)
    (fresh : ∀ guest ∈ new, count ≤ guest) : answersTo (guests ++ new) sent = answersTo guests sent := by
  apply List.filter_congr
  intro answer member
  have before := older answer member
  have other : answer.1 ∉ new := fun inside => by
    have after := fresh answer.1 inside
    omega
  simp [other]

theorem idle_later (spaceName : Bytes) (guests new : List Nat) (count next : Nat) (name : Bytes) (space : TsdElement)
    (idle : Idle spaceName guests count name space) (grows : count ≤ next) (fresh : ∀ guest ∈ new, count ≤ guest) :
    Idle spaceName (guests ++ new) next name space where
  named := idle.named
  bcast := idle.bcast
  elsewhere := by
    intro other request member inside
    have before := idle.older request member
    cases List.mem_append.mp inside with
    | inl old => exact idle.elsewhere other request member old
    | inr late =>
        have after := fresh request.ticket late
        omega
  older := fun request member => Nat.lt_of_lt_of_le (idle.older request member) grows

theorem holds_next (spaceName : Bytes) (state : Connections) (next : Daemon) (new : List Nat) (lobby : Lobbies.Lobby Nat Bytes)
    (out : List Out) (holds : state.Holds spaceName) (sent : next.sent = state.daemon.sent ++ out)
    (grows : state.daemon.clients.length ≤ next.clients.length)
    (fresh : new = [] ∨ new = [state.daemon.clients.length] ∧ state.daemon.clients.length < next.clients.length)
    (order : lobby.guests = state.guests ++ new) (empties : lobby.Empties)
    (shown : lobby.shown = state.lobby.shown ++ answersTo (state.guests ++ new) out)
    (answered : ∀ answer ∈ answersIn out, answer.1 < next.clients.length)
    (idle : ∀ name space, next.self.spaceTable name = some space →
      Idle spaceName (state.guests ++ new) next.clients.length name space)
    (hosts : ∃ space, next.self.spaceTable spaceName = some space ∧ Hosts lobby space) :
    Connections.Holds spaceName { daemon := next, guests := state.guests ++ new, lobby := lobby } := by
  have newest : ∀ guest ∈ new, guest = state.daemon.clients.length ∧ guest < next.clients.length := by
    intro guest member
    rcases fresh with none | ⟨one, more⟩
    · rw [none] at member
      cases member
    · rw [one] at member
      have same := List.mem_singleton.mp member
      exact ⟨same, same ▸ more⟩
  constructor
  · change answersTo (state.guests ++ new) next.sent = lobby.shown
    rw [sent, answers_to_append, answers_to_later _ _ _ _ holds.answered fun guest member => (newest guest member).1.ge, holds.shown,
      shown]
  · exact order
  · exact empties
  · refine List.Nodup.append holds.distinct ?_ fun guest old late => ?_
    · rcases fresh with none | ⟨one, _⟩
      · rw [none]
        exact List.nodup_nil
      · rw [one]
        exact List.nodup_singleton _
    · have before := holds.older guest old
      have after := (newest guest late).1
      omega
  · intro guest member
    cases List.mem_append.mp member with
    | inl old => exact Nat.lt_of_lt_of_le (holds.older guest old) grows
    | inr late => exact (newest guest late).2
  · intro answer member
    change answer ∈ answersIn next.sent at member
    rw [sent, answers_in_append] at member
    cases List.mem_append.mp member with
    | inl old => exact Nat.lt_of_lt_of_le (holds.answered answer old) grows
    | inr late => exact answered answer late
  · exact idle
  · exact hosts

theorem connecting_act (env : Platform) (self : Tsd) (args : HandlerArg) (space : TsdElement) (call : Call) (bytes : Bytes) (acted : Acted)
    (spaceName name : Bytes) (guests new : List Nat) (idle : Idle spaceName guests args.ticket name space)
    (connecting : (∃ mode, call = .tsOpen mode) ∨ call = .tsClose) (fresh : ∀ guest ∈ new, args.ticket ≤ guest)
    (mine : name ≠ spaceName → new = []) (older : ∀ guest ∈ guests, guest < args.ticket)
    (done : call.act env self args space bytes = .ok acted) :
    Idle spaceName (guests ++ new) (args.ticket + 1) name acted.space ∧ ∀ answer ∈ answersIn acted.sent, answer.1 = args.ticket := by
  rcases connecting with ⟨mode, asked⟩ | closed
  · subst asked
    have connect := any_connect env self args space mode acted done
    refine ⟨⟨by rw [connect.named]; exact idle.named, by rw [connect.bcast]; exact idle.bcast, ?_, ?_⟩, connect.answers⟩
    · intro other request member inside
      rw [mine other, List.append_nil] at inside
      cases connect.waiting request member with
      | inl old => exact idle.elsewhere other request old inside
      | inr ticket => exact absurd (older request.ticket inside) (by omega)
    · intro request member
      cases connect.waiting request member with
      | inl old => exact Nat.lt_succ_of_lt (idle.older request old)
      | inr ticket => omega
  · subst closed
    obtain ⟨history, same, silent⟩ := idle_term env self space acted idle.named idle.bcast done
    have later := idle_later spaceName guests new args.ticket (args.ticket + 1) name space idle (Nat.le_succ _) fresh
    rw [same, silent]
    exact ⟨⟨rfl, rfl, later.elsewhere, later.older⟩, fun answer none => absurd none List.not_mem_nil⟩

theorem elsewhere_holds (env : Platform) (spaceName : Bytes) (state : Connections) (next : Daemon) (arrival : Arrival)
    (holds : state.Holds spaceName) (other : arrival.ts.tsname.chars ≠ spaceName)
    (connecting : (∃ mode, arrival.call = .tsOpen mode) ∨ arrival.call = .tsClose)
    (taken : state.daemon.step env arrival = some next) :
    Connections.Holds spaceName { daemon := next, guests := state.guests ++ [], lobby := state.lobby } := by
  obtain ⟨handled, served, same⟩ := step_served env state.daemon next arrival taken
  subst same
  have count : (state.daemon.clients ++ [arrival.client]).length = state.daemon.clients.length + 1 := List.length_append
  have unknown : state.daemon.clients.length ∉ state.guests := fun member => absurd (holds.older _ member) (Nat.lt_irrefl _)
  have kept : ∀ name space, state.daemon.self.spaceTable name = some space →
      Idle spaceName (state.guests ++ []) (state.daemon.clients.length + 1) name space := fun name space found =>
    idle_later spaceName state.guests [] _ _ name space (holds.idle name space found) (Nat.le_succ _) (by simp)
  have silent : ∀ out, (∀ answer ∈ answersIn out, answer.1 = state.daemon.clients.length) →
      state.lobby.shown = state.lobby.shown ++ answersTo (state.guests ++ []) out ∧
        ∀ answer ∈ answersIn out, answer.1 < state.daemon.clients.length + 1 := by
    intro out ours
    refine ⟨?_, fun answer member => by rw [ours answer member]; exact Nat.lt_succ_self _⟩
    rw [answers_to_none, List.append_nil]
    intro answer member
    rw [ours answer member, List.append_nil]
    exact unknown
  cases served with
  | refused closed =>
      obtain ⟨shown, answered⟩ := silent _ (word_answers env arrival.ts.isLocal state.daemon.clients.length TupleCommand.tsEnf.code)
      refine holds_next spaceName state _ [] state.lobby _ holds rfl ?_ (Or.inl rfl) ?_ holds.empties shown ?_ ?_ holds.hosts
      · rw [count]
        exact Nat.le_succ _
      · rw [List.append_nil]
        exact holds.order
      · rw [count]
        exact answered
      · rw [count]
        exact kept
  | acted space bytes rest acted there active payload done =>
      obtain ⟨idle, ours⟩ := connecting_act env state.daemon.self _ space arrival.call bytes acted spaceName _ state.guests []
        (holds.idle _ space there) connecting (by simp) (fun _ => rfl) holds.older done
      obtain ⟨shown, answered⟩ := silent acted.sent ours
      refine holds_next spaceName state _ [] state.lobby _ holds rfl ?_ (Or.inl rfl) ?_ holds.empties shown ?_ ?_ ?_
      · rw [count]
        exact Nat.le_succ _
      · rw [List.append_nil]
        exact holds.order
      · rw [count]
        exact answered
      · rw [count]
        exact update_each _ _ acted.space _ kept idle
      · obtain ⟨host, found, hosts⟩ := holds.hosts
        exact ⟨host, (Function.update_of_ne (Ne.symm other) _ _).trans found, hosts⟩

theorem here_holds (spaceName : Bytes) (state : Connections) (client : Identity) (acted : Acted) (new : List Nat)
    (lobby : Lobbies.Lobby Nat Bytes) (holds : state.Holds spaceName) (fresh : new = [] ∨ new = [state.daemon.clients.length])
    (order : lobby.guests = state.guests ++ new) (empties : lobby.Empties)
    (kept : Idle spaceName (state.guests ++ new) (state.daemon.clients.length + 1) spaceName acted.space ∧
      ∀ answer ∈ answersIn acted.sent, answer.1 = state.daemon.clients.length)
    (shown : lobby.shown = state.lobby.shown ++ answersTo (state.guests ++ new) acted.sent) (hosts : Hosts lobby acted.space) :
    Connections.Holds spaceName
      { daemon :=
          { self := { state.daemon.self with
              spaceTable := Function.update state.daemon.self.spaceTable spaceName (some acted.space) }
            clients := state.daemon.clients ++ [client]
            sent := state.daemon.sent ++ acted.sent }
        guests := state.guests ++ new
        lobby := lobby } := by
  obtain ⟨idle, ours⟩ := kept
  have count : (state.daemon.clients ++ [client]).length = state.daemon.clients.length + 1 := List.length_append
  have newest : ∀ guest ∈ new, state.daemon.clients.length ≤ guest := by
    intro guest member
    rcases fresh with none | one
    · rw [none] at member
      cases member
    · rw [one] at member
      exact (List.mem_singleton.mp member).ge
  refine holds_next spaceName state _ new lobby acted.sent holds rfl ?_ ?_ order empties shown ?_ ?_
    ⟨acted.space, Function.update_self _ _ _, hosts⟩
  · rw [count]
    exact Nat.le_succ _
  · rw [count]
    exact fresh.imp id fun one => ⟨one, Nat.lt_succ_self _⟩
  · rw [count]
    exact fun answer member => by rw [ours answer member]; exact Nat.lt_succ_self _
  · rw [count]
    exact update_each _ _ acted.space _
      (fun name space found => idle_later _ _ _ _ _ name space (holds.idle name space found) (Nat.le_succ _) newest) idle

theorem connect_holds (env : Platform) (spaceName : Bytes) (state : Connections) (next : Daemon) (arrival : Arrival) (mode : UInt32)
    (holds : state.Holds spaceName) (here : arrival.ts.tsname.chars = spaceName) (asked : arrival.call = .tsOpen mode)
    (taken : state.daemon.step env arrival = some next) : (state.after spaceName next (.receives arrival)).Holds spaceName := by
  obtain ⟨handled, served, same⟩ := step_served env state.daemon next arrival taken
  obtain ⟨space, found, hosts⟩ := holds.hosts
  subst same
  subst here
  cases served with
  | refused closed =>
      have connect := (closed space found).1
      rw [asked] at connect
      exact absurd rfl connect
  | acted other bytes rest acted there active payload done =>
      cases Option.some.inj (there.symm.trans found)
      have kept : ∀ new : List Nat, (∀ guest ∈ new, state.daemon.clients.length ≤ guest) →
          Idle arrival.ts.tsname.chars (state.guests ++ new) (state.daemon.clients.length + 1) arrival.ts.tsname.chars acted.space ∧
            ∀ answer ∈ answersIn acted.sent, answer.1 = state.daemon.clients.length := fun new fresh =>
        connecting_act env state.daemon.self _ space arrival.call bytes acted _ _ state.guests new (holds.idle _ space found)
          (Or.inl ⟨mode, asked⟩) fresh (fun different => absurd rfl different) holds.older done
      have place := hosts.place
      rw [asked] at done
      cases worker_connect env state.daemon.self _ space mode acted hosts.worker done with
      | refused asks after answers =>
          simp only [Connections.after, Turn.event, asked, if_true, if_neg asks]
          refine here_holds _ state arrival.client acted [] state.lobby holds (Or.inl rfl) ?_ holds.empties (kept [] (by simp)) ?_ ?_
          · rw [List.append_nil]
            exact holds.order
          · rw [answersTo, answers, List.filter_nil, List.append_nil]
          · rw [after]
            exact ⟨hosts.worker, place, hosts.waiting, fun _ => rfl⟩
      | answered asks active after answers =>
          simp only [Connections.after, Turn.event, asked, if_true, if_pos asks]
          have event := Lobbies.step_guests state.lobby (.comes state.daemon.clients.length) holds.empties
          rw [holds.order] at event
          rw [active, if_pos rfl] at place
          refine here_holds _ state arrival.client acted [state.daemon.clients.length] _ holds (Or.inr rfl) event
            (Lobbies.step_empties _ _ holds.empties) (kept _ fun guest member => (List.mem_singleton.mp member).ge) ?_ ?_
          · rw [answers_to_all, answers]
            · simp only [Lobbies.Lobby.step, place]
            · intro answer member
              rw [answers] at member
              rw [List.mem_singleton.mp member]
              exact List.mem_append_right _ (List.mem_singleton_self _)
          · rw [after]
            refine ⟨hosts.worker, ?_, ?_, fun _ => rfl⟩
            · simp only [Lobbies.Lobby.step, place, active, if_true]
            · simp only [Lobbies.Lobby.step, place]
              exact hosts.waiting
      | waits asks inactive request ticket after answers =>
          simp only [Connections.after, Turn.event, asked, if_true, if_pos asks]
          have event := Lobbies.step_guests state.lobby (.comes state.daemon.clients.length) holds.empties
          rw [holds.order] at event
          rw [inactive] at place
          have shut : state.lobby.place = none := place
          refine here_holds _ state arrival.client acted [state.daemon.clients.length] _ holds (Or.inr rfl) event
            (Lobbies.step_empties _ _ holds.empties) (kept _ fun guest member => (List.mem_singleton.mp member).ge) ?_ ?_
          · rw [answersTo, answers, List.filter_nil, List.append_nil]
            simp only [Lobbies.Lobby.step, shut]
          · rw [after]
            refine ⟨hosts.worker, ?_, ?_, fun _ => rfl⟩
            · simp only [Lobbies.Lobby.step, shut, inactive]
              rfl
            · simp only [Lobbies.Lobby.step, shut, List.map_append, List.map_cons, List.map_nil, ticket, hosts.waiting]

theorem term_holds (env : Platform) (spaceName : Bytes) (state : Connections) (next : Daemon) (arrival : Arrival)
    (holds : state.Holds spaceName) (here : arrival.ts.tsname.chars = spaceName) (closes : arrival.call = .tsClose)
    (taken : state.daemon.step env arrival = some next) : (state.after spaceName next (.receives arrival)).Holds spaceName := by
  obtain ⟨handled, served, same⟩ := step_served env state.daemon next arrival taken
  obtain ⟨space, found, hosts⟩ := holds.hosts
  subst same
  subst here
  have event := Lobbies.step_guests state.lobby .shuts holds.empties
  rw [holds.order] at event
  have empties := Lobbies.step_empties state.lobby .shuts holds.empties
  simp only [Connections.after, Turn.event, closes, if_true]
  cases served with
  | refused closed =>
      have count : (state.daemon.clients ++ [arrival.client]).length = state.daemon.clients.length + 1 := List.length_append
      have inactive := (closed space found).2
      have ours := word_answers env arrival.ts.isLocal state.daemon.clients.length TupleCommand.tsEnf.code
      have unknown : state.daemon.clients.length ∉ state.guests := fun member => absurd (holds.older _ member) (Nat.lt_irrefl _)
      refine holds_next _ state _ [] _ _ holds rfl ?_ (Or.inl rfl) event empties ?_ ?_ ?_ ⟨space, found, ?_⟩
      · rw [count]
        exact Nat.le_succ _
      · rw [answers_to_none, List.append_nil]
        · rfl
        · intro answer member
          rw [ours answer member, List.append_nil]
          exact unknown
      · rw [count]
        exact fun answer member => by rw [ours answer member]; exact Nat.lt_succ_self _
      · rw [count]
        exact fun name space found => idle_later _ _ _ _ _ name space (holds.idle name space found) (Nat.le_succ _) (by simp)
      · exact ⟨hosts.worker, by rw [inactive]; rfl, hosts.waiting, hosts.asked⟩
  | acted other bytes rest acted there active payload done =>
      cases Option.some.inj (there.symm.trans found)
      have kept := connecting_act env state.daemon.self _ space arrival.call bytes acted _ _ state.guests [] (holds.idle _ space found)
        (Or.inr closes) (by simp) (fun _ => rfl) holds.older done
      have idle := holds.idle _ space found
      rw [closes] at done
      obtain ⟨history, after, answers⟩ := idle_term env state.daemon.self space acted idle.named idle.bcast done
      refine here_holds _ state arrival.client acted [] _ holds (Or.inl rfl) event empties kept ?_ ?_
      · rw [answersTo, answers, List.filter_nil, List.append_nil]
        rfl
      · rw [after]
        exact ⟨hosts.worker, rfl, hosts.waiting, hosts.asked⟩

theorem token_holds (spaceName : Bytes) (state : Connections) (self : Tsd) (sent : List Out) (holds : state.Holds spaceName)
    (others : ∀ answer ∈ answersIn sent, answer.1 ∉ state.guests ∧ answer.1 < state.daemon.clients.length)
    (idle : ∀ name space, self.spaceTable name = some space → Idle spaceName state.guests state.daemon.clients.length name space)
    (same : self.spaceTable spaceName = state.daemon.self.spaceTable spaceName) :
    Connections.Holds spaceName
      { daemon := { self := self, clients := state.daemon.clients, sent := state.daemon.sent ++ sent }
        guests := state.guests ++ []
        lobby := state.lobby } := by
  refine holds_next spaceName state _ [] state.lobby sent holds rfl (Nat.le_refl _) (Or.inl rfl) ?_ holds.empties ?_
    (fun answer member => (others answer member).2) ?_ ?_
  · rw [List.append_nil]
    exact holds.order
  · rw [List.append_nil, answers_to_none _ _ fun answer member => (others answer member).1, List.append_nil]
  · rw [List.append_nil]
    exact idle
  · rw [same]
    exact holds.hosts

theorem activation_holds (env : Platform) (spaceName : Bytes) (state : Connections) (self : Tsd) (tk : GenericToken) (sent : List Out)
    (holds : state.Holds spaceName) (done : connectTokenNext env state.daemon.self tk = .ok (self, sent)) :
    (state.after spaceName { self := self, clients := state.daemon.clients, sent := state.daemon.sent ++ sent }
      (.activates tk)).Holds spaceName := by
  obtain ⟨host, found, hosts⟩ := holds.hosts
  have event := fun place => (Lobbies.step_guests state.lobby (.opens place) holds.empties).trans (congrArg (· ++ []) holds.order)
  have empties := fun place => Lobbies.step_empties state.lobby (.opens place) holds.empties
  cases connect_token_opened env state.daemon.self self tk sent done with
  | ignored same answers open_ =>
      subst same
      have nothing : ∀ answer ∈ answersIn sent, answer.1 ∉ state.guests ∧ answer.1 < state.daemon.clients.length := by
        rw [answers]
        exact fun answer none => absurd none List.not_mem_nil
      have ignored := token_holds spaceName state _ sent holds nothing holds.idle rfl
      by_cases ours : (blockString tk.buf1).toOption = some spaceName
      · have named : blockString tk.buf1 = .ok spaceName := by
          cases block : blockString tk.buf1 with
          | error stop =>
              rw [block] at ours
              cases ours
          | ok name =>
              rw [block] at ours
              cases ours
              rfl
        have place := hosts.place
        rw [open_ spaceName host named found, if_pos rfl] at place
        simp only [Connections.after, Turn.event, if_pos ours, found, Option.map_some, Lobbies.Lobby.step, place]
        exact ignored
      · simp only [Connections.after, Turn.event, if_neg ours]
        exact ignored
  | opened name space direct named there inactive same answers =>
      by_cases here : name = spaceName
      · subst here
        cases Option.some.inj (there.symm.trans found)
        have ours : (blockString tk.buf1).toOption = some name := by rw [named]; rfl
        have asked : (if host.isRequested then host.connectRequests else []) = host.connectRequests := by
          by_cases asked : host.isRequested = true
          · rw [if_pos asked]
          · rw [if_neg asked]
            by_contra waiting
            exact asked (hosts.asked (Ne.symm waiting))
        have emptied : (if host.isRequested then [] else host.connectRequests) = [] := by
          by_cases asked : host.isRequested = true
          · rw [if_pos asked]
          · rw [if_neg asked]
            by_contra waiting
            exact asked (hosts.asked waiting)
        have place := hosts.place
        rw [inactive] at place
        have shut : state.lobby.place = none := place
        rw [asked] at answers
        rw [emptied] at same
        have order := holds.order
        rw [Lobbies.Lobby.guests, hosts.waiting] at order
        have known : ∀ request ∈ host.connectRequests, request.ticket ∈ state.guests := by
          intro request member
          rw [← order]
          exact List.mem_append_right _ (List.mem_map_of_mem member)
        have idle := holds.idle name host found
        simp only [Connections.after, Turn.event, if_pos ours, same, Function.update_self, Option.map_some]
        refine holds_next name state _ [] _ sent holds rfl (Nat.le_refl _) (Or.inl rfl) (event (cstr direct)) (empties (cstr direct))
          ?_ ?_ ?_ ⟨_, (congrFun same name).trans (Function.update_self _ _ _), ?_⟩
        · rw [List.append_nil, answers_to_all, answers]
          · simp only [Lobbies.Lobby.step, shut, hosts.waiting, List.map_map]
            rfl
          · rw [answers]
            intro answer member
            obtain ⟨request, waits, is⟩ := List.mem_map.mp member
            rw [← is]
            exact known request waits
        · rw [answers]
          intro answer member
          obtain ⟨request, waits, is⟩ := List.mem_map.mp member
          rw [← is]
          exact idle.older request waits
        · change ∀ other after, self.spaceTable other = some after → _
          rw [same, List.append_nil]
          exact update_each _ _ _ _ holds.idle
            ⟨idle.named, idle.bcast, fun different => absurd rfl different, fun request none => absurd none List.not_mem_nil⟩
        · refine ⟨hosts.worker, ?_, ?_, fun waiting => absurd rfl waiting⟩
          · simp only [Lobbies.Lobby.step, shut]
            rfl
          · simp only [Lobbies.Lobby.step, shut]
            rfl
      · have ours : ¬ (blockString tk.buf1).toOption = some spaceName := by
          rw [named]
          exact fun same => here (Option.some.inj same)
        have idle := holds.idle name space there
        have fewer : ∀ request ∈ (if space.isRequested then [] else space.connectRequests), request ∈ space.connectRequests := by
          intro request member
          split at member
          · cases member
          · exact member
        simp only [Connections.after, Turn.event, if_neg ours]
        refine token_holds spaceName state self sent holds ?_ ?_ ?_
        · rw [answers]
          intro answer member
          obtain ⟨request, waits, is⟩ := List.mem_map.mp member
          have waits : request ∈ space.connectRequests := by
            split at waits
            · exact waits
            · cases waits
          rw [← is]
          exact ⟨idle.elsewhere here request waits, idle.older request waits⟩
        · rw [same]
          exact update_each _ _ _ _ holds.idle ⟨idle.named, idle.bcast,
            fun other request member => idle.elsewhere other request (fewer request member),
            fun request member => idle.older request (fewer request member)⟩
        · rw [same]
          exact Function.update_of_ne (Ne.symm here) _ _

theorem termination_holds (spaceName : Bytes) (state : Connections) (self : Tsd) (tk : GenericToken) (sent : List Out)
    (holds : state.Holds spaceName) (done : termTokenNext state.daemon.self tk = .ok (self, sent)) :
    (state.after spaceName { self := self, clients := state.daemon.clients, sent := state.daemon.sent ++ sent }
      (.decomissions tk)).Holds spaceName := by
  obtain ⟨name, named, answers, same⟩ := term_token_shuts state.daemon.self self tk sent done
  obtain ⟨host, found, hosts⟩ := holds.hosts
  have nothing : ∀ answer ∈ answersIn sent, answer.1 ∉ state.guests ∧ answer.1 < state.daemon.clients.length := by
    rw [answers]
    exact fun answer none => absurd none List.not_mem_nil
  have idle : ∀ other space, self.spaceTable other = some space →
      Idle spaceName state.guests state.daemon.clients.length other space := by
    rw [same]
    cases there : state.daemon.self.spaceTable name with
    | none => exact holds.idle
    | some space =>
        have before := holds.idle name space there
        exact update_each _ _ _ _ holds.idle ⟨before.named, before.bcast, before.elsewhere, before.older⟩
  by_cases here : name = spaceName
  · subst here
    have ours : (blockString tk.buf1).toOption = some name := by rw [named]; rfl
    simp only [Connections.after, Turn.event, if_pos ours]
    refine holds_next name state _ [] _ sent holds rfl (Nat.le_refl _) (Or.inl rfl) ?_
      (Lobbies.step_empties state.lobby .shuts holds.empties) ?_ (fun answer member => (nothing answer member).2) ?_ ?_
    · exact (Lobbies.step_guests state.lobby .shuts holds.empties).trans (congrArg (· ++ []) holds.order)
    · rw [answersTo, answers, List.filter_nil, List.append_nil]
      rfl
    · rw [List.append_nil]
      exact idle
    · refine ⟨{ host with isActivated := false }, ?_, hosts.worker, rfl, hosts.waiting, hosts.asked⟩
      change self.spaceTable name = _
      rw [same, found]
      exact Function.update_self _ _ _
  · have ours : ¬ (blockString tk.buf1).toOption = some spaceName := by
      rw [named]
      exact fun equal => here (Option.some.inj equal)
    simp only [Connections.after, Turn.event, if_neg ours]
    refine token_holds spaceName state self sent holds nothing idle ?_
    rw [same]
    split
    · rfl
    · exact Function.update_of_ne (Ne.symm here) _ _

theorem turn_holds_lobby (env : Platform) (spaceName : Bytes) (state next : Connections) (turn : Turn) (holds : state.Holds spaceName)
    (connecting : turn.Connecting) (taken : state.step env spaceName turn = some next) : next.Holds spaceName := by
  obtain ⟨daemon, turned, same⟩ := Option.map_eq_some_iff.mp taken
  subst same
  cases turn with
  | receives arrival =>
      by_cases here : arrival.ts.tsname.chars = spaceName
      · rcases connecting with ⟨mode, asked⟩ | closes
        · exact connect_holds env spaceName state daemon arrival mode holds here asked turned
        · exact term_holds env spaceName state daemon arrival holds here closes turned
      · simp only [Connections.after, event_elsewhere spaceName state.daemon daemon arrival here]
        exact elsewhere_holds env spaceName state daemon arrival holds here connecting turned
  | activates tk =>
      change state.daemon.heard (connectTokenNext env state.daemon.self tk) = some daemon at turned
      cases done : connectTokenNext env state.daemon.self tk with
      | error stop =>
          rw [done] at turned
          cases turned
      | ok result =>
          rw [done] at turned
          cases turned
          exact activation_holds env spaceName state result.1 tk result.2 holds done
  | decomissions tk =>
      change state.daemon.heard (termTokenNext state.daemon.self tk) = some daemon at turned
      cases done : termTokenNext state.daemon.self tk with
      | error stop =>
          rw [done] at turned
          cases turned
      | ok result =>
          rw [done] at turned
          cases turned
          exact termination_holds spaceName state result.1 tk result.2 holds done

theorem start_holds_lobby (endpoint : Bytes) (replicationFactor : UInt32) (spaces : List SngNamespace) (spaceName : Bytes)
    (there : ∃ space, (tsdCreate endpoint replicationFactor spaces).spaceTable spaceName = some space)
    (worker : ∀ config ∈ spaces, config.name = spaceName → config.tsMode = .worker) :
    (Connections.start spaceName (Daemon.start endpoint replicationFactor spaces)).Holds spaceName := by
  have nobody : ∀ name space, (tsdCreate endpoint replicationFactor spaces).spaceTable name = some space →
      Idle spaceName [] 0 name space := by
    intro name space found
    obtain ⟨config, _, _, same⟩ := created_space endpoint replicationFactor spaces name space found
    subst same
    exact ⟨rfl, rfl, fun _ request none => absurd none List.not_mem_nil, fun request none => absurd none List.not_mem_nil⟩
  refine ⟨rfl, rfl, fun _ => rfl, List.nodup_nil, fun guest none => absurd none List.not_mem_nil,
    fun answer none => absurd none List.not_mem_nil, nobody, ?_⟩
  obtain ⟨space, found⟩ := there
  refine ⟨space, found, ?_⟩
  obtain ⟨config, member, named, same⟩ := created_space endpoint replicationFactor spaces spaceName space found
  subst same
  refine ⟨worker config member named, ?_, rfl, fun waiting => absurd rfl waiting⟩
  change ((tsdCreate endpoint replicationFactor spaces).spaceTable spaceName).bind _ = _
  rw [found, Option.bind_some]

theorem lobby_run (env : Platform) (spaceName : Bytes) (state last : Connections) (turns : List Turn)
    (ran : Runs.run (Connections.step env spaceName) state turns = some last) :
    Runs.run (Daemon.turn env) state.daemon turns = some last.daemon := by
  induction turns generalizing state with
  | nil =>
      cases Option.some.inj ran
      rfl
  | cons turn rest ih =>
      obtain ⟨next, taken, remaining⟩ := Runs.run_cons_some _ _ _ _ _ ran
      obtain ⟨daemon, turned, same⟩ := Option.map_eq_some_iff.mp taken
      have later := ih next remaining
      have reached : next.daemon = daemon := by
        rw [← same]
        unfold Connections.after
        split
        · rfl
        · rfl
      rw [reached] at later
      simp only [Runs.run, turned]
      exact later

theorem connecting_closed (daemon : Daemon) (turn : Turn) (connecting : turn.Connecting) : ¬ turn.LeavesOpen daemon := by
  cases turn with
  | receives arrival =>
      rintro ⟨_, ⟨takes, blocking, fetch⟩, _⟩
      rcases connecting with ⟨mode, asked⟩ | closes
      · rw [fetch] at asked
        cases asked
      · rw [fetch] at closes
        cases closes
  | activates tk => exact id
  | decomissions tk => exact id

theorem connecting_complete (env : Platform) (endpoint : Bytes) (replicationFactor : UInt32) (spaces : List SngNamespace)
    (turns : List Turn) (last : Daemon) (connecting : ∀ turn ∈ turns, turn.Connecting)
    (ran : Runs.run (Daemon.turn env) (Daemon.start endpoint replicationFactor spaces) turns = some last) : last.Complete := by
  have initial : (Daemon.start endpoint replicationFactor spaces).Known := by
    intro spaceName space found
    obtain ⟨config, _, _, same⟩ := created_space endpoint replicationFactor spaces spaceName space found
    subst same
    exact ⟨by simp [createElement], by simp [createElement], by simp [createElement]⟩
  have kept := Runs.run_guarded_invariant (Daemon.turn env) (fun _ turn => turn.Connecting)
    (fun daemon => daemon.Known ∧ daemon.Complete) ?_ _ last turns ⟨initial, replied_nil _⟩
    (Runs.meets_of_forall _ _ _ _ fun turn member _ => connecting turn member) ran
  · exact kept.2
  · intro daemon turn next holds connects taken
    obtain ⟨known, ⟨more, clients⟩, sent, same, _, replies⟩ := turn_replied env daemon next turn holds.1 taken
    refine ⟨known, ?_⟩
    rw [Daemon.Complete, same]
    refine replied_append _ _ _ ?_ (replies (connecting_closed daemon turn connects))
    rw [clients]
    exact replied_later _ _ _ holds.2

-- The TsConnects of a space in worker mode are answered once each, in the order they came, with the direct endpoint that the space
-- has then: at once where it is open, otherwise when a token opens it next. Nobody waits where it is open.
theorem connects_answered_once (env : Platform) (endpoint : Bytes) (replicationFactor : UInt32) (spaces : List SngNamespace)
    (spaceName : Bytes) (turns : List Turn) (state : Connections)
    (there : ∃ space, (tsdCreate endpoint replicationFactor spaces).spaceTable spaceName = some space)
    (worker : ∀ config ∈ spaces, config.name = spaceName → config.tsMode = .worker)
    (connecting : ∀ turn ∈ turns, turn.Connecting)
    (ran : Runs.run (Connections.step env spaceName)
      (Connections.start spaceName (Daemon.start endpoint replicationFactor spaces)) turns = some state) :
    ∃ space, state.daemon.self.spaceTable spaceName = some space ∧
      (space.isActivated = true → space.connectRequests = []) ∧
      state.lobby.place = (if space.isActivated then some (cstr space.directEndpoint) else none) ∧
      state.lobby.waiting = space.connectRequests.map BlockingRequest.ticket ∧
      answersTo state.guests state.daemon.sent = state.lobby.shown ∧
      (answersTo state.guests state.daemon.sent).map Prod.fst ++ space.connectRequests.map BlockingRequest.ticket = state.guests ∧
      state.guests.Nodup ∧ state.daemon.Complete := by
  have holds := Runs.run_guarded_invariant (Connections.step env spaceName) (fun _ turn => turn.Connecting)
    (Connections.Holds spaceName) (fun state turn next holds connects taken =>
      turn_holds_lobby env spaceName state next turn holds connects taken)
    _ state turns (start_holds_lobby endpoint replicationFactor spaces spaceName there worker)
    (Runs.meets_of_forall _ _ _ _ fun turn member _ => connecting turn member) ran
  obtain ⟨space, found, hosts⟩ := holds.hosts
  refine ⟨space, found, fun active => ?_, hosts.place, hosts.waiting, holds.shown, ?_, holds.distinct, ?_⟩
  · have place := hosts.place
    rw [if_pos active] at place
    have nobody := holds.empties (by rw [place]; exact Option.some_ne_none _)
    rw [hosts.waiting] at nobody
    exact List.map_eq_nil_iff.mp nobody
  · rw [holds.shown, ← hosts.waiting]
    exact holds.order
  · exact connecting_complete env endpoint replicationFactor spaces turns state.daemon connecting
      (lobby_run env spaceName _ state turns ran)

def sampleWorker : List SngNamespace :=
  [{ name := [115], directEndpoint := List.replicate 256 0, tsMode := .worker, tsdMode := .token }]

-- Two wait, a token opens the space, and a third one comes.
def sampleConnects : List Turn :=
  [sampleTurn sampleClient true (.tsOpen 0), sampleTurn otherClient false (.tsOpen 1),
    .activates { id := 0, ttl := -1, buf1 := [some 115, some 0], buf2 := [69, 0], len1 := 2, len2 := 2 },
    sampleTurn otherClient false (.tsOpen 1)]

set_option maxRecDepth 20000 in
theorem connects_answered_once_sample : ∃ state space,
    Runs.run (Connections.step samplePlatform [115]) (Connections.start [115] (Daemon.start [101] 1 sampleWorker)) sampleConnects =
        some state ∧
      state.daemon.self.spaceTable [115] = some space ∧ space.connectRequests = [] ∧
      answersTo state.guests state.daemon.sent = [(0, [69]), (1, [69]), (2, [69])] ∧ state.daemon.Complete := by
  obtain ⟨state, ran, shown, active⟩ : ∃ state,
      Runs.run (Connections.step samplePlatform [115]) (Connections.start [115] (Daemon.start [101] 1 sampleWorker)) sampleConnects =
          some state ∧
        state.lobby.shown = [(0, [69]), (1, [69]), (2, [69])] ∧
        (state.daemon.self.spaceTable [115]).map TsdElement.isActivated = some true := ⟨_, rfl, rfl, rfl⟩
  have connecting : ∀ turn ∈ sampleConnects, turn.Connecting := by
    simp [sampleConnects, sampleTurn, Turn.Connecting]
  obtain ⟨space, found, empty, _, _, answers, _, _, complete⟩ := connects_answered_once samplePlatform [101] 1 sampleWorker [115]
    sampleConnects state ⟨_, rfl⟩ (by decide) connecting ran
  rw [found] at active
  exact ⟨state, space, ran, found, empty (Option.some.inj active), answers.trans shown, complete⟩

end Synergy
