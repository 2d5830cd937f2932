import Synergy.Broadcast
import Synergy.Connects
import Synergy.NodeRing
import Synergy.Peers

set_option autoImplicit false

namespace Synergy

-- What a client has in its handle after the answer to its first TsConnect: is_local, or remote.
inductive TsOpened where
  | failed | master | p2p
  | remote (endpoint : Bytes)
deriving DecidableEq

-- ts_open on _socket. Blocking and worker daemons both end in _worker: behind the mode comes the address of the master.
def tsOpenReceive (host : HostOrder) (input : Input) : Except Stop (TsOpened × Input) := do
  let (mode, input) ← recvUint32 host input
  if mode = tsModeBlock ∨ mode = tsModeClient then
    let (remote, input) ← recvStr host input
    return (.remote remote, input)
  else if mode = tsModeMaster then return (.master, input)
  else if mode = tsModeP2P then
    let (_, input) ← recvUint32 host input
    return (.p2p, input)
  else return (.failed, input)

theorem hears_master (host sender : HostOrder) :
    tsOpenReceive host ⟨[sendUint32Frame sender tsModeMaster false], false, []⟩ = .ok (.master, ⟨[], false, []⟩) := by
  have mode := recv_uint32_frame sender host tsModeMaster false false [] []
  have other : ¬ (tsModeMaster = tsModeBlock ∨ tsModeMaster = tsModeClient) := by decide
  simp only [tsOpenReceive, mode, bind, Except.bind, if_neg other, if_true, pure, Except.pure]

theorem hears_remote (host sender : HostOrder) (mode : UInt32) (worker : mode = tsModeBlock ∨ mode = tsModeClient) (more rcvmore : Bool)
    (endpoint : Name) (short : endpoint.chars.length < maxIdLen) :
    tsOpenReceive host ⟨sendUint32Frame sender mode more :: sendStrFrames sender endpoint false, rcvmore, []⟩ =
      .ok (.remote endpoint.chars, ⟨[], false, []⟩) := by
  have size : maxIdLen = 256 := by decide
  have word := recv_uint32_frame sender host mode more rcvmore (sendStrFrames sender endpoint false) []
  have str := recv_str_short sender host endpoint false more [] [] (by omega)
  rw [List.append_nil] at str
  simp only [tsOpenReceive, word, str, bind, Except.bind, if_pos worker, pure, Except.pure]

theorem master_answers (env : Platform) (self : Tsd) (args : HandlerArg) (space : TsdElement) (mode : UInt32) (clientid : Bytes)
    (client : args.clientid = .str clientid) (asks : mode = tsModeMaster ∨ mode = tsModeClient) (master : space.tsMode = .master)
    (room : self.endpoint.length < space.directEndpoint.length) :
    ∃ acted, connectMode env self args space mode = .ok acted ∧
      clientFrames acted.sent = [sendUint32Frame env.host tsModeMaster false] := by
  have copied : copyEndpoint space.directEndpoint self.endpoint =
      .ok (self.endpoint ++ 0 :: space.directEndpoint.drop (self.endpoint.length + 1)) := if_pos room
  have token : ((sendActivateSignal self { space with isRequested := true }).2).filterMap Out.clientFrame = [] := by
    unfold sendActivateSignal
    split <;> rfl
  have frames : ∀ chars, clientFrames (.frame args.isLocal args.ticket chars true ::
      (sendActivateSignal self { space with isRequested := true }).2 ++ [sendUint32 env args.isLocal args.ticket tsModeMaster false]) =
      [sendUint32Frame env.host tsModeMaster false] := by
    intro chars
    rw [clientFrames, List.cons_append, List.filterMap_cons, List.filterMap_append, token]
    rfl
  have other : ¬ tsModeClient = tsModeMaster := by decide
  cases asks with
  | inl same =>
      exact ⟨⟨none, { (sendActivateSignal self { space with isRequested := true }).1 with
          directEndpoint := self.endpoint ++ 0 :: space.directEndpoint.drop (self.endpoint.length + 1), isActivated := true }, _⟩,
        by simp only [connectMode, client, sendClientid, CString.chars, master, same, copied, bind, Except.bind, pure, Except.pure,
          if_true],
        frames clientid⟩
  | inr same =>
      exact ⟨⟨none, { (sendActivateSignal self { space with isRequested := true }).1 with isActivated := true }, _⟩,
        by simp only [connectMode, client, sendClientid, CString.chars, master, same, if_neg other, bind, Except.bind, pure, Except.pure,
          if_true],
        frames clientid⟩

theorem worker_answers (env : Platform) (self : Tsd) (args : HandlerArg) (space : TsdElement) (mode : UInt32) (clientid : Bytes)
    (client : args.clientid = .str clientid) (asks : mode = tsModeMaster ∨ mode = tsModeClient) (worker : space.tsMode = .worker)
    (active : space.isActivated = true) (ended : 0 ∈ space.directEndpoint) :
    ∃ acted, connectMode env self args space mode = .ok acted ∧ clientFrames acted.sent =
      sendUint32Frame env.host tsModeClient true :: sendStrFrames env.host ⟨cstr space.directEndpoint, cstr_nul_free _⟩ false := by
  have other : ¬ (mode ≠ tsModeMaster ∧ mode ≠ tsModeClient) := fun both => asks.elim both.1 both.2
  refine ⟨⟨some 0, { space with isRequested := true }, .frame args.isLocal args.ticket clientid true ::
    sendUint32 env args.isLocal args.ticket tsModeClient true :: [.frame args.isLocal args.ticket (p2pmSendStr env.host
      (cstr space.directEndpoint)).1 true, .frame args.isLocal args.ticket (p2pmSendStr env.host (cstr space.directEndpoint)).2 false]⟩,
    ?_, rfl⟩
  simp only [connectMode, client, sendClientid, CString.chars, worker, if_neg other, active, endpointStr, if_pos ended, sendStr, bind,
    Except.bind, pure, Except.pure, if_true]

theorem open_dispatched (env : Platform) (self : Tsd) (args : HandlerArg) (space : TsdElement) (host : HostOrder) (mode : UInt32)
    (acted : Acted) (connects : args.action = .tsConnect) (done : connectMode env self args space mode = .ok acted) :
    dispatch env self args space ⟨[sendUint32Frame host mode false], true, []⟩ = .ok (acted, ⟨[], false, []⟩) := by
  have word := recv_uint32_frame host env.host mode false true [] []
  simp only [dispatch, connects, tsConnectHandler, word, done, bind, Except.bind]
  unfold safeReturn
  split <;> rfl

theorem open_handled (env : Platform) (self : Tsd) (ts : Ts) (clientid : Identity) (ticket : Nat) (mode : UInt32) (space : TsdElement)
    (acted : Acted) (found : self.spaceTable ts.tsname.chars = some space)
    (done : connectMode env self ⟨.str clientid.chars, .tsConnect, ts.isLocal, ticket⟩ space mode = .ok acted) :
    handler env self ts.isLocal ticket ⟨⟨clientid.chars, true⟩ :: (Call.tsOpen mode).frames ts, false, []⟩ =
      .ok ⟨{ self with spaceTable := Function.update self.spaceTable ts.tsname.chars (some acted.space) }, acted.sent,
        ⟨[], false, []⟩⟩ := by
  have dispatched := open_dispatched env self ⟨.str clientid.chars, .tsConnect, ts.isLocal, ticket⟩ space ts.host mode acted rfl done
  rcases handler_reaches env self ts clientid ticket (.tsOpen mode) [] false [] with ⟨-, closed⟩ | ⟨other, same, -, reached⟩
  · exact absurd rfl (closed space found).1
  · cases found.symm.trans same
    rw [List.append_nil] at reached
    rw [reached, show dispatch env self ⟨.str clientid.chars, (Call.tsOpen mode).command, ts.isLocal, ticket⟩ space
      ⟨(Call.tsOpen mode).arguments ts ++ [], !(Call.tsOpen mode).commandIsLast, []⟩ = _ from dispatched]
    rfl

theorem endpoint_ends (direct endpoint : Bytes) (same : cstr direct = endpoint) (room : endpoint.length < direct.length) :
    0 ∈ direct := by
  by_contra clean
  have whole : cstr direct = direct := (cstr_eq_self direct).mpr clean
  rw [← same, whole] at room
  exact absurd room (Nat.lt_irrefl _)

-- A worker's space that has not been asked for, or is open: nobody waits for its endpoint.
def TsdElement.Attended (space : TsdElement) : Prop :=
  space.tsMode = .worker → space.isRequested = false ∨ space.isActivated = true → space.connectRequests = []

def Tsd.Attends (daemon : Tsd) (spaceName : Bytes) : Prop :=
  ∀ space, daemon.spaceTable spaceName = some space → space.Attended

theorem update_attends (daemon : Tsd) (spaceName other : Bytes) (space : TsdElement) (attends : daemon.Attends spaceName)
    (kept : other = spaceName → space.Attended) :
    ({ daemon with spaceTable := Function.update daemon.spaceTable other (some space) } : Tsd).Attends spaceName := by
  intro element found
  by_cases same : spaceName = other
  · subst same
    simp only [Function.update_self] at found
    cases found
    exact kept rfl
  · simp only [Function.update_of_ne same] at found
    exact attends element found

theorem connect_attended (env : Platform) (self : Tsd) (args : HandlerArg) (space : TsdElement) (mode : UInt32) (acted : Acted)
    (clientid : Bytes) (client : args.clientid = .str clientid) (attended : space.Attended)
    (done : connectMode env self args space mode = .ok acted) : acted.space.Attended := by
  intro worker served
  have before : space.tsMode = .worker := (connect_mode_connected env self args space mode acted clientid client done).tsMode ▸ worker
  cases worker_connect env self args space mode acted before done with
  | refused asks same answers =>
      rw [same] at served ⊢
      have active : space.isActivated = true := served.resolve_left (by simp)
      exact attended before (Or.inr active)
  | answered asks active same answers =>
      rw [same]
      exact attended before (Or.inr active)
  | waits asks inactive request ticket same answers =>
      rw [same] at served
      simp [inactive] at served

theorem open_attends (env : Platform) (self : Tsd) (arrival : Arrival) (ticket : Nat) (handled : Handled) (spaceName : Bytes)
    (mode : UInt32) (asked : arrival.call = .tsOpen mode) (attends : self.Attends spaceName)
    (done : handler env self arrival.ts.isLocal ticket arrival.input = .ok handled) : handled.self.Attends spaceName := by
  have served : Served env self arrival.ts arrival.client ticket arrival.call [] arrival.chunks handled := by
    apply handler_call env self arrival.ts arrival.client ticket arrival.call [] false arrival.chunks handled
    simpa only [Arrival.input, List.append_nil] using done
  cases served with
  | refused closed => exact attends
  | acted space bytes rest acted found active payload performed =>
      rw [asked] at performed
      exact update_attends self spaceName _ acted.space attends fun same =>
        connect_attended env self _ space mode acted _ rfl (attends space (same ▸ found)) performed

theorem connect_token_attends (env : Platform) (self next : Tsd) (tk : GenericToken) (sent : List Out) (spaceName : Bytes)
    (attends : self.Attends spaceName) (done : connectTokenNext env self tk = .ok (next, sent)) : next.Attends spaceName := by
  obtain ⟨name, named, done⟩ := bind_ok _ _ _ done
  cases there : self.spaceTable name with
  | none =>
      simp only [there] at done
      cases done
      exact attends
  | some element =>
      simp only [there] at done
      split at done
      · cases done
        exact attends
      · split at done
        · cases done
        · obtain ⟨answers, told, done⟩ := bind_ok _ _ _ done
          cases done
          refine update_attends self spaceName name _ attends fun same => ?_
          have before := attends element (same ▸ there)
          by_cases asked : element.isRequested = true
          · rw [if_pos asked]
            exact fun _ _ => rfl
          · rw [if_neg asked]
            exact fun worker _ => before worker (Or.inl (by simpa using asked))

theorem token_attends (env : Platform) (stray : UInt8) (self next : Tsd) (tk : GenericToken) (sent : List Out) (spaceName : Bytes)
    (attends : self.Attends spaceName) (done : tokenHandler env stray self tk = .ok (next, sent)) : next.Attends spaceName := by
  by_cases connects : tk.id = 0
  · unfold tokenHandler at done
    rw [if_pos connects] at done
    exact connect_token_attends env self next tk sent spaceName attends done
  · have took := token_handler_taken env stray self next tk sent done
    generalize tokensIn sent = tokens at took
    cases took with
    | activates name element waiting id named there inactive room left => exact absurd id connects
    | decomissions name element id named there =>
        refine update_attends self spaceName name _ attends fun same worker served => ?_
        have asked : element.isRequested = false := served.resolve_right (by simp)
        exact attends element (same ▸ there) worker (Or.inl asked)
    | _ => exact attends

variable {n : Nat} [NeZero n]

theorem move_attends (env : Fin n → Platform) (spaceName : Bytes) (ring next : TokenRing n) (move : Move n)
    (attends : ∀ i, (ring.daemons i).Attends spaceName)
    (connects : move.Calls fun _ arrival => ∃ mode, arrival.call = .tsOpen mode) (moved : ring.step env move = some next) :
    ∀ i, (next.daemons i).Attends spaceName := by
  have updated : ∀ i self, self.Attends spaceName → ∀ j, (Function.update ring.daemons i self j).Attends spaceName := by
    intro i self kept j
    by_cases here : j = i
    · subst here
      rw [Function.update_self]
      exact kept
    · rw [Function.update_of_ne here]
      exact attends j
  cases connects with
  | asks i arrival asked =>
      obtain ⟨mode, asked⟩ := asked
      unfold TokenRing.step Arrival.move at moved
      dsimp only at moved
      split at moved
      · cases moved
      · rename_i handled done
        cases moved
        exact updated i handled.self (open_attends (env i) _ arrival ring.tickets handled spaceName mode asked (attends i) done)
  | delivers i stray =>
      unfold TokenRing.step at moved
      dsimp only at moved
      split at moved
      · cases moved
      · rename_i passing later waiting
        split at moved
        · cases moved
        · rename_i self sent done
          cases moved
          exact updated i self (token_attends (env i) stray _ self passing.token sent spaceName (attends i) done)

-- Nobody who opens a space is left waiting: where a worker has it open nobody waits, and once its master has it open and no token telling
-- of it is on its way, nobody waits anywhere.
theorem nobody_left_waiting (platform : Fin n → Platform) (env : Fin n → P2pmEnv) (spaceName : Bytes) (M : Fin n) (ring last : NodeRing n)
    (moves : List (NodeMove n)) (fresh : ring.Fresh) (closed : TokenRing.Fresh spaceName M ⟨ring.daemons, fun _ => [], ring.tickets, []⟩)
    (idle : ∀ i element, (ring.daemons i).spaceTable spaceName = some element → element.connectRequests = [])
    (clean : NulFree (ring.daemons M).endpoint) (nameClean : NulFree spaceName)
    (connects : ∀ move ∈ moves.flatMap NodeMove.shown, move.Calls fun _ arrival => ∃ mode, arrival.call = .tsOpen mode)
    (stands : Runs.Throughout (NodeRing.step platform env) (NodeRing.Stands env) ring moves)
    (accepts : Runs.Meets (NodeRing.step platform env) (NodeRing.Accepts platform env) ring moves)
    (ran : Runs.run (NodeRing.step platform env) ring moves = some last) (i : Fin n) (element : TsdElement)
    (found : (last.daemons i).spaceTable spaceName = some element) (worker : element.tsMode = .worker) :
    (element.isActivated = true → element.connectRequests = []) ∧
      ((∃ master, (last.daemons M).spaceTable spaceName = some master ∧ master.isActivated = true) →
        (∀ j, last.telling env spaceName j = []) → element.connectRequests = []) := by
  obtain ⟨image, reached, realised⟩ := realised_run platform env ring last moves fresh stands accepts ran
  have attends := Runs.run_guarded_invariant (TokenRing.step platform)
    (fun _ move => move.Calls fun _ arrival => ∃ mode, arrival.call = .tsOpen mode)
    (fun image => ∀ i, (image.daemons i).Attends spaceName)
    (fun image move next inv permitted moved => move_attends platform spaceName image next move inv permitted moved)
    _ image _ (fun i element there _ _ => idle i element there) (Runs.meets_of_forall _ _ _ _ fun move member _ => connects move member)
    reached
  rw [realised.daemons] at attends
  have attended := attends i element found worker
  refine ⟨fun active => attended (Or.inr active), fun open_ quiet => ?_⟩
  obtain ⟨image, k, spread, daemons, telling, -⟩ :=
    nodes_spread platform env spaceName M ring last moves fresh closed clean nameClean connects stands accepts ran
  exact attended (Or.inr (spread_open spaceName _ M k env last image spread daemons telling open_ quiet i element found).1)

theorem sample_nodes_created (i : Fin 2) (element : TsdElement) (found : (sampleNodeRing.daemons i).spaceTable [115] = some element) :
    element.directEndpoint.length = maxIdLen ∧ element.connectRequests = [] := by
  obtain ⟨config, member, _, same⟩ := created_space _ _ _ [115] element found
  rw [same, List.mem_singleton.mp member]
  exact ⟨List.length_replicate, rfl⟩

theorem sample_nodes_roomy :
    Roomy [115] (sampleNodeRing.daemons 0).endpoint ⟨sampleNodeRing.daemons, fun _ => [], sampleNodeRing.tickets, []⟩ := by
  intro i element found
  obtain ⟨array, idle⟩ := sample_nodes_created i element found
  have endpoint : (sampleNodeRing.daemons 0).endpoint = [65] := rfl
  rw [array, idle, endpoint]
  exact ⟨by decide, fun request member => absurd member List.not_mem_nil⟩

-- As above, but another client asks B first and has to wait.
def sampleWaitingMoves : List (NodeMove 2) := .hears (Fin.last 1) false (sampleConnect otherClient 1).input :: sampleNodeMoves

theorem sample_waiting_stands : Runs.Throughout (NodeRing.step (fun _ => samplePlatform) sampleMemberEnv) (NodeRing.Stands sampleMemberEnv)
    sampleNodeRing sampleWaitingMoves := by decide +kernel

theorem sample_waiting_accept : Runs.Meets (NodeRing.step (fun _ => samplePlatform) sampleMemberEnv)
    (NodeRing.Accepts (fun _ => samplePlatform) sampleMemberEnv) sampleNodeRing sampleWaitingMoves := by
  refine Runs.meets_of_forall _ _ _ _ fun move member ring => ?_
  rcases List.mem_cons.mp member with same | later
  · rw [same]
    exact sample_connect_accepts otherClient 1 ring _ rfl
  · exact sample_moves_accepted move later ring

theorem sample_waiting_connect : ∀ move ∈ sampleWaitingMoves.flatMap NodeMove.shown,
    move.Calls fun _ arrival => ∃ mode, arrival.call = .tsOpen mode := by
  intro move member
  rcases List.mem_cons.mp member with same | later
  · rw [same]
    exact Move.Calls.asks (Fin.last 1) (sampleConnect otherClient 1) ⟨1, rfl⟩
  · exact sample_nodes_connect move later

set_option maxRecDepth 20000 in
theorem nobody_left_waiting_two : ∃ next last before element,
    NodeRing.step (fun _ => samplePlatform) sampleMemberEnv sampleNodeRing (.hears (Fin.last 1) false (sampleConnect otherClient 1).input) =
      some next ∧
    Runs.run (NodeRing.step (fun _ => samplePlatform) sampleMemberEnv) next sampleNodeMoves = some last ∧
    (next.daemons 1).spaceTable [115] = some before ∧ before.connectRequests.length = 1 ∧
    (last.daemons 1).spaceTable [115] = some element ∧ element.connectRequests = [] := by
  obtain ⟨next, last, before, asked, ran, waits, one, active, quiet, element, found, worker⟩ : ∃ next last before,
      NodeRing.step (fun _ => samplePlatform) sampleMemberEnv sampleNodeRing (.hears (Fin.last 1) false (sampleConnect otherClient 1).input) =
        some next ∧
      Runs.run (NodeRing.step (fun _ => samplePlatform) sampleMemberEnv) next sampleNodeMoves = some last ∧
      (next.daemons 1).spaceTable [115] = some before ∧ before.connectRequests.length = 1 ∧
      (∃ element, (last.daemons 0).spaceTable [115] = some element ∧ element.isActivated = true) ∧
      (∀ i, last.telling sampleMemberEnv [115] i = []) ∧
      ∃ element, (last.daemons 1).spaceTable [115] = some element ∧ element.tsMode = .worker :=
    ⟨_, _, _, rfl, rfl, rfl, rfl, ⟨_, rfl, rfl⟩, fun i => match i with | 0 => rfl | 1 => rfl, _, rfl, rfl⟩
  have whole : Runs.run (NodeRing.step (fun _ => samplePlatform) sampleMemberEnv) sampleNodeRing sampleWaitingMoves = some last := by
    rw [sampleWaitingMoves, Runs.run, asked]
    exact ran
  have nobody := nobody_left_waiting _ _ [115] 0 sampleNodeRing last sampleWaitingMoves sample_nodes_fresh sample_ring_fresh
    (fun i element there => (sample_nodes_created i element there).2) (by decide) (by decide) sample_waiting_connect sample_waiting_stands
    sample_waiting_accept whole 1 element found worker
  exact ⟨next, last, before, element, asked, ran, waits, one, found, nobody.2 active quiet⟩

-- Once the master has the space open and no token telling of it is on its way, it does not matter which daemon a client asks: the master
-- says that it is the master, and any worker names the endpoint of the master.
theorem opens_lead_to_master (platform : Fin n → Platform) (env : Fin n → P2pmEnv) (M : Fin n) (ring last : NodeRing n)
    (moves : List (NodeMove n)) (ts : Ts) (fresh : ring.Fresh)
    (closed : TokenRing.Fresh ts.tsname.chars M ⟨ring.daemons, fun _ => [], ring.tickets, []⟩)
    (clean : NulFree (ring.daemons M).endpoint) (short : (ring.daemons M).endpoint.length < maxIdLen)
    (roomy : Roomy ts.tsname.chars (ring.daemons M).endpoint ⟨ring.daemons, fun _ => [], ring.tickets, []⟩)
    (connects : ∀ move ∈ moves.flatMap NodeMove.shown, move.Calls fun _ arrival => ∃ mode, arrival.call = .tsOpen mode)
    (stands : Runs.Throughout (NodeRing.step platform env) (NodeRing.Stands env) ring moves)
    (accepts : Runs.Meets (NodeRing.step platform env) (NodeRing.Accepts platform env) ring moves)
    (ran : Runs.run (NodeRing.step platform env) ring moves = some last)
    (open_ : ∃ element, (last.daemons M).spaceTable ts.tsname.chars = some element ∧ element.isActivated = true)
    (quiet : ∀ i, last.telling env ts.tsname.chars i = []) (i : Fin n) (element : TsdElement)
    (found : (last.daemons i).spaceTable ts.tsname.chars = some element) (token : element.tsMode ≠ .p2p)
    (clientid : Identity) (ticket : Nat) (mode : UInt32)
    (asks : mode = tsModeMaster ∨ mode = tsModeClient) :
    ∃ handled, handler (platform i) (last.daemons i) ts.isLocal ticket ⟨⟨clientid.chars, true⟩ :: (Call.tsOpen mode).frames ts, false, []⟩ =
        .ok handled ∧
      tsOpenReceive ts.host ⟨clientFrames handled.sent, false, []⟩ =
        .ok (if i = M then .master else .remote (ring.daemons M).endpoint, ⟨[], false, []⟩) := by
  obtain ⟨image, k, spread, daemons, telling, kept⟩ :=
    nodes_spread platform env ts.tsname.chars M ring last moves fresh closed clean ts.tsname.clean connects stands accepts ran
  have room : (ring.daemons M).endpoint.length < element.directEndpoint.length :=
    (kept roomy i element (by rw [TokenRing.space, daemons]; exact found)).1
  by_cases here : i = M
  · subst here
    obtain ⟨master, there, mastered, -⟩ := spread.master
    rw [TokenRing.space, daemons] at there
    cases found.symm.trans there
    have origin : (last.daemons i).endpoint = (ring.daemons i).endpoint := by rw [← daemons]; exact spread.origin
    obtain ⟨acted, done, told⟩ := master_answers (platform i) (last.daemons i) ⟨.str clientid.chars, .tsConnect, ts.isLocal, ticket⟩ element
      mode clientid.chars rfl asks mastered (by rw [origin]; exact room)
    refine ⟨_, open_handled (platform i) (last.daemons i) ts clientid ticket mode element acted found done, ?_⟩
    rw [told, if_pos rfl]
    exact hears_master ts.host (platform i).host
  · obtain ⟨active, direct⟩ := spread_open ts.tsname.chars _ M k env last image spread daemons telling open_ quiet i element found
    have worker : element.tsMode = .worker := by
      have other := spread.workers i here element (by rw [TokenRing.space, daemons]; exact found)
      cases same : element.tsMode with
      | master => exact absurd same other
      | worker => rfl
      | p2p => exact absurd same token
    have ended := endpoint_ends element.directEndpoint _ (direct here) room
    obtain ⟨acted, done, told⟩ := worker_answers (platform i) (last.daemons i) ⟨.str clientid.chars, .tsConnect, ts.isLocal, ticket⟩ element
      mode clientid.chars rfl asks worker active ended
    refine ⟨_, open_handled (platform i) (last.daemons i) ts clientid ticket mode element acted found done, ?_⟩
    have named : (⟨cstr element.directEndpoint, cstr_nul_free _⟩ : Name) = ⟨(ring.daemons M).endpoint, clean⟩ := by
      simp only [direct here]
    rw [told, if_neg here, named]
    exact hears_remote ts.host (platform i).host tsModeClient (Or.inr rfl) true false ⟨(ring.daemons M).endpoint, clean⟩ short

set_option maxRecDepth 20000 in
theorem opens_lead_to_master_two : ∃ last handled,
    Runs.run (NodeRing.step (fun _ => samplePlatform) sampleMemberEnv) sampleNodeRing sampleNodeMoves = some last ∧
    handler samplePlatform (last.daemons 1) false 7 (sampleConnect otherClient 1).input = .ok handled ∧
    tsOpenReceive .little ⟨clientFrames handled.sent, false, []⟩ = .ok (.remote [65], ⟨[], false, []⟩) := by
  obtain ⟨last, ran, active, quiet, element, found, token⟩ : ∃ last,
      Runs.run (NodeRing.step (fun _ => samplePlatform) sampleMemberEnv) sampleNodeRing sampleNodeMoves = some last ∧
      (∃ element, (last.daemons 0).spaceTable [115] = some element ∧ element.isActivated = true) ∧
      (∀ i, last.telling sampleMemberEnv [115] i = []) ∧
      ∃ element, (last.daemons 1).spaceTable [115] = some element ∧ element.tsMode ≠ .p2p :=
    ⟨_, rfl, ⟨_, rfl, rfl⟩, fun i => match i with | 0 => rfl | 1 => rfl, _, rfl, by decide⟩
  obtain ⟨handled, done, heard⟩ := opens_lead_to_master _ _ 0 sampleNodeRing last sampleNodeMoves (sampleConnect otherClient 1).ts
    sample_nodes_fresh sample_ring_fresh (by decide) (by decide) sample_nodes_roomy sample_nodes_connect sample_nodes_stand
    sample_nodes_accept ran active quiet 1 element found token otherClient 7 1 (Or.inr rfl)
  exact ⟨last, handled, ran, done, heard⟩

end Synergy
