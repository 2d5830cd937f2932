import Synergy.Pending

set_option autoImplicit false

namespace Synergy

-- The message starts with the identity of the client it answers, and all of it is for that client.
def Addressed (clients : List Identity) (message : List Sent) : Prop :=
  ∃ ticket client rest, clients[ticket]? = some client ∧ message = ⟨ticket, client.chars, true⟩ :: rest ∧
    ∀ frame ∈ rest, frame.ticket = ticket

def Replied (clients : List Identity) (sent : List Out) : Prop :=
  ∀ isLocal, Multipart.Complete Sent.more (Addressed clients) (framesOn isLocal sent)

-- On neither socket is a message under way.
def Daemon.Complete (daemon : Daemon) : Prop := Replied daemon.clients daemon.sent

theorem replied_nil (clients : List Identity) : Replied clients [] := fun _ => Multipart.complete_nil _ _

theorem replied_append (clients : List Identity) (first second : List Out) (one : Replied clients first)
    (two : Replied clients second) : Replied clients (first ++ second) := by
  intro isLocal
  rw [frames_on_append]
  exact Multipart.complete_append _ _ _ _ (one isLocal) (two isLocal)

theorem addressed_later (clients more : List Identity) (message : List Sent) (addressed : Addressed clients message) :
    Addressed (clients ++ more) message := by
  obtain ⟨ticket, other, rest, known, same, every⟩ := addressed
  exact ⟨ticket, other, rest, List.getElem?_append_left (List.getElem?_eq_some_iff.mp known).1 ▸ known, same, every⟩

theorem replied_later (clients more : List Identity) (sent : List Out) (replied : Replied clients sent) :
    Replied (clients ++ more) sent :=
  fun isLocal => Multipart.complete_weaken _ _ _ _ (addressed_later clients more) (replied isLocal)

theorem replied_body (clients : List Identity) (client : Identity) (isLocal : Bool) (ticket : Nat) (outs : List Out)
    (known : clients[ticket]? = some client) (body : Body isLocal ticket outs) :
    Replied clients (.frame isLocal ticket client.chars true :: outs) := by
  intro side
  by_cases same : side = isLocal
  · subst same
    rw [frames_on_here]
    obtain ⟨front, last, shape, announce, ends⟩ := body.here
    refine Multipart.complete_message _ _ _ ⟨⟨ticket, client.chars, true⟩ :: front, last, by rw [shape]; rfl, ?_, ends⟩
      ⟨ticket, client, _, known, rfl, body.ours⟩
    intro frame member
    rcases List.mem_cons.mp member with head | later
    · rw [head]
    · exact announce frame later
  · have other : side = !isLocal := by cases side <;> cases isLocal <;> simp_all
    subst other
    rw [frames_on_elsewhere, body.elsewhere]
    exact Multipart.complete_nil _ _

def BlockingRequest.From (clients : List Identity) (request : BlockingRequest) : Prop :=
  ∃ client, clients[request.ticket]? = some client ∧ request.clientid = .str client.chars

-- The requests of bcast_queue_requests lost their client id when they were enqueued.
structure TsdElement.Known (clients : List Identity) (space : TsdElement) : Prop where
  named : ∀ request ∈ space.namedQueueRequests, isBlocking request.command = true ∧ request.From clients
  bcast : ∀ request ∈ space.bcastQueueRequests, request.clientid = .freed
  connect : ∀ request ∈ space.connectRequests, request.From clients

theorem match_loop_replied (env : Platform) (clients : List Identity) (tuple : SngTuple) (rounds : Nat) (state final : Matching)
    (finished : Bool) (known : ∀ request ∈ state.requests, isBlocking request.command = true ∧ request.From clients)
    (replied : Replied clients state.sent)
    (done : matchLoop env tuple rounds state = .ok (final, finished)) :
    (∀ request ∈ final.requests, isBlocking request.command = true ∧ request.From clients) ∧ Replied clients final.sent := by
  induction rounds generalizing state with
  | zero => cases done
  | succ rounds ih =>
      obtain ⟨handle, found, done⟩ := bind_ok _ _ _ done
      cases handle with
      | none =>
          cases done
          exact ⟨known, replied⟩
      | some handle =>
          obtain ⟨before, matched, after, split, position, _, _⟩ := zlistx_find_some _ _ _ found
          have detached : zlistxDetach state.requests (some handle) = (some matched, before ++ after) := by
            rw [split, ← position, zlistx_detach_split]
          have rest : ∀ request ∈ before ++ after, isBlocking request.command = true ∧ request.From clients := fun request member =>
            known request (split ▸ (List.mem_append.mp member).elim (by simp +contextual) (by simp +contextual))
          simp only [detached] at done
          by_cases consumed : (!state.needAppend) = true
          · rw [if_pos consumed] at done
            cases done
            exact ⟨rest, replied⟩
          · rw [if_neg consumed] at done
            obtain ⟨blocking, client, there, identity⟩ := known matched (by simp [split])
            obtain ⟨header, sent, done⟩ := bind_ok _ _ _ done
            rw [identity] at sent
            cases sent
            obtain ⟨reply, responded, done⟩ := bind_ok _ _ _ done
            have built : matchReply env tuple matched =
                (do let reply ← handleNamedQueueReadResponse env matched.isLocal matched.ticket tuple
                    return some reply) := by
              simp only [isBlocking, decide_eq_true_eq] at blocking
              rcases blocking with get | read | pop | peek <;> simp only [matchReply, *]
            rw [built] at responded
            obtain ⟨frames, response, same⟩ := bind_ok _ _ _ responded
            cases same
            have body := read_response_body env matched.isLocal matched.ticket tuple frames response
            exact ih _ rest (replied_append clients _ _ replied
              (replied_body clients client matched.isLocal matched.ticket frames there body)) done

theorem match_replied (env : Platform) (self : Tsd) (clients : List Identity) (space after : TsdElement) (tuple : SngTuple)
    (action : TupleCommand) (rt : Int) (sent : List Out) (known : space.Known clients)
    (write : action = .tsPut ∨ action = .tsAdd)
    (done : matchBlockingRequests env self space tuple action = .ok (rt, after, sent)) :
    after.Known clients ∧ Replied clients sent := by
  have queue : space.opQueue action = some space.namedQueueRequests := by
    rcases write with put | add <;> simp [TsdElement.opQueue, *]
  have notBcast : ¬ action = .tsBCastWrite := by
    rcases write with put | add <;> simp [*]
  simp only [matchBlockingRequests, queue] at done
  obtain ⟨⟨state, finished⟩, looped, done⟩ := bind_ok _ _ _ done
  obtain ⟨rest, replied⟩ := match_loop_replied env clients tuple _ _ state finished known.named (replied_nil clients) looped
  have left : ({ space.setOpQueue action state.requests with history := state.history } : TsdElement).Known clients := by
    rw [TsdElement.setOpQueue, if_neg notBcast]
    exact ⟨rest, known.bcast, known.connect⟩
  have added : (({ space.setOpQueue action state.requests with history := state.history } : TsdElement).addEnd action tuple).Known clients := by
    rw [TsdElement.addEnd, if_neg notBcast]
    exact ⟨left.named, left.bcast, left.connect⟩
  simp only at done
  split at done
  · cases done
    exact ⟨left, replied⟩
  · split at done
    · cases done
      exact ⟨left, replied⟩
    · split at done
      · obtain ⟨token, _, done⟩ := bind_ok _ _ _ done
        cases done
        refine ⟨added, replied_append clients _ _ replied fun isLocal => ?_⟩
        rw [frames_on_token]
        exact Multipart.complete_nil _ _
      · cases done
        exact ⟨added, replied⟩

theorem from_later (clients : List Identity) (client : Identity) (request : BlockingRequest) (known : request.From clients) :
    request.From (clients ++ [client]) := by
  obtain ⟨other, there, identity⟩ := known
  exact ⟨other, List.getElem?_append_left (List.getElem?_eq_some_iff.mp there).1 ▸ there, identity⟩

theorem known_later (clients : List Identity) (client : Identity) (space : TsdElement) (known : space.Known clients) :
    space.Known (clients ++ [client]) where
  named := fun request member => ⟨(known.named request member).1, from_later clients client request (known.named request member).2⟩
  bcast := known.bcast
  connect := fun request member => from_later clients client request (known.connect request member)

-- What the daemon does for a call of the client that has just been given its ticket.
structure Asked (clients : List Identity) (client : Identity) (args : HandlerArg) : Prop where
  clientid : args.clientid = .str client.chars
  known : clients[args.ticket]? = some client

theorem enf_body (env : Platform) (args : HandlerArg) : Body args.isLocal args.ticket [sendEnf env args] :=
  body_frames args.isLocal args.ticket [] _ []

theorem connect_replied (env : Platform) (self : Tsd) (clients : List Identity) (client : Identity) (args : HandlerArg)
    (space : TsdElement) (mode : UInt32) (acted : Acted) (asked : Asked clients client args) (known : space.Known clients)
    (done : connectMode env self args space mode = .ok acted) : acted.space.Known clients ∧ Replied clients acted.sent := by
  obtain ⟨header, identity, done⟩ := bind_ok _ _ _ done
  rw [asked.clientid] at identity
  cases identity
  have single : ∀ word, Body args.isLocal args.ticket [sendUint32 env args.isLocal args.ticket word false] := fun word =>
    body_frames args.isLocal args.ticket [] _ []
  have plain : ∀ word, Replied clients
      [.frame args.isLocal args.ticket client.chars true, sendUint32 env args.isLocal args.ticket word false] := fun word =>
    replied_body clients client args.isLocal args.ticket _ asked.known (single word)
  have activated : ∀ before word, Replied clients (.frame args.isLocal args.ticket client.chars true ::
      (sendActivateSignal self before).2 ++ [sendUint32 env args.isLocal args.ticket word false]) := fun before word side => by
    have none := (activate_signal self before).2.1 side
    have same : framesOn side (.frame args.isLocal args.ticket client.chars true :: (sendActivateSignal self before).2 ++
        [sendUint32 env args.isLocal args.ticket word false]) =
        framesOn side [.frame args.isLocal args.ticket client.chars true, sendUint32 env args.isLocal args.ticket word false] := by
      rw [← List.singleton_append, frames_on_append, frames_on_append, none, List.append_nil, ← frames_on_append]
      rfl
    rw [same]
    exact plain word side
  have kept : ∀ after : TsdElement, after.namedQueueRequests = space.namedQueueRequests →
      after.bcastQueueRequests = space.bcastQueueRequests → after.connectRequests = space.connectRequests →
      after.Known clients := fun after named bcast connect =>
    ⟨by rw [named]; exact known.named, by rw [bcast]; exact known.bcast, by rw [connect]; exact known.connect⟩
  cases tsMode : space.tsMode with
  | master =>
      simp only [tsMode] at done
      split at done
      · obtain ⟨direct, _, done⟩ := bind_ok _ _ _ done
        cases done
        exact ⟨kept _ (by rw [(activate_signal self _).1]) (by rw [(activate_signal self _).1])
          (by rw [(activate_signal self _).1]), activated _ _⟩
      · split at done
        · cases done
          exact ⟨kept _ (by rw [(activate_signal self _).1]) (by rw [(activate_signal self _).1])
            (by rw [(activate_signal self _).1]), activated _ _⟩
        · cases done
          exact ⟨kept _ rfl rfl rfl, plain _⟩
  | worker =>
      simp only [tsMode] at done
      split at done
      · cases done
        exact ⟨kept _ rfl rfl rfl, plain _⟩
      · split at done
        · obtain ⟨direct, _, done⟩ := bind_ok _ _ _ done
          obtain ⟨endpoint, sent, done⟩ := bind_ok _ _ _ done
          obtain ⟨len, body, same⟩ := send_str_frames _ _ _ _ _ _ sent
          subst same
          cases done
          exact ⟨kept _ rfl rfl rfl, replied_body clients client args.isLocal args.ticket _ asked.known
            (body_frames args.isLocal args.ticket [_, len] body [])⟩
        · cases done
          refine ⟨⟨known.named, known.bcast, fun request member => ?_⟩, plain _⟩
          rcases List.mem_append.mp member with old | new
          · exact known.connect request old
          · rw [List.mem_singleton.mp new]
            exact ⟨client, asked.known, asked.clientid⟩
  | p2p =>
      simp only [tsMode] at done
      split at done
      · cases done
        exact ⟨kept _ rfl rfl rfl, plain _⟩
      · cases done
        exact ⟨kept _ rfl rfl rfl, plain _⟩

theorem record_known (clients : List Identity) (space : TsdElement) (event : Event) (known : space.Known clients) :
    (space.record event).Known clients := ⟨known.named, known.bcast, known.connect⟩

theorem write_token_replied (clients : List Identity) (self : Tsd) (buf1 : List (Option UInt8)) (len2 : Nat) :
    Replied clients [writeToken self buf1 len2] := fun isLocal => by
  rw [writeToken, frames_on_token]
  exact Multipart.complete_nil _ _

theorem put_replied (env : Platform) (self : Tsd) (clients : List Identity) (args : HandlerArg) (space : TsdElement)
    (name data : Bytes) (acted : Acted) (action : args.action = .tsPut) (known : space.Known clients)
    (done : putTuple env self args space name data = .ok acted) : acted.space.Known clients ∧ Replied clients acted.sent := by
  have recorded := record_known clients space (.accepted ⟨.str name, 0, data, args.ticket⟩) known
  rw [putTuple] at done
  split at done
  · cases done
    exact ⟨⟨recorded.named, recorded.bcast, recorded.connect⟩, write_token_replied _ _ _ _⟩
  · obtain ⟨⟨rt, after, sent⟩, matched, done⟩ := bind_ok _ _ _ done
    cases done
    exact match_replied env self clients _ after _ args.action rt sent recorded (Or.inl action) matched

theorem add_replied (env : Platform) (self : Tsd) (clients : List Identity) (args : HandlerArg) (space : TsdElement)
    (anonId : UInt32) (data : Bytes) (received : Nat) (acted : Acted) (action : args.action = .tsAdd)
    (known : space.Known clients) (done : addTuple env self args space anonId data received = .ok acted) :
    acted.space.Known clients ∧ Replied clients acted.sent := by
  have recorded := record_known clients space (.accepted ⟨.null, anonId, data, args.ticket⟩) known
  rw [addTuple] at done
  split at done
  · cases done
    exact ⟨recorded, write_token_replied _ _ _ _⟩
  · obtain ⟨⟨rt, after, sent⟩, matched, done⟩ := bind_ok _ _ _ done
    cases done
    exact match_replied env self clients _ after _ args.action rt sent recorded (Or.inr action) matched

theorem enqueue_connect (space : TsdElement) (args : HandlerArg) (query : CString) :
    (space.enqueue args query).connectRequests = space.connectRequests := by
  unfold TsdElement.enqueue
  split <;> rfl

theorem enqueue_known (clients : List Identity) (client : Identity) (args : HandlerArg) (space : TsdElement) (query : CString)
    (asked : Asked clients client args) (known : space.Known clients) : (space.enqueue args query).Known clients where
  named := by
    intro request member
    rw [enqueue_requests] at member
    rcases List.mem_append.mp member with old | new
    · exact known.named request old
    · split at new
      · rename_i blocks
        rw [List.mem_singleton.mp new]
        exact ⟨blocks, client, asked.known, asked.clientid⟩
      · cases new
  bcast := by
    rw [enqueue_bcast]
    exact known.bcast
  connect := by
    rw [enqueue_connect]
    exact known.connect

theorem read_replied (env : Platform) (clients : List Identity) (client : Identity) (args : HandlerArg) (space : TsdElement)
    (name : Bytes) (acted : Acted) (asked : Asked clients client args) (known : space.Known clients)
    (done : readTuple env args space name = .ok acted) : acted.space.Known clients ∧ Replied clients acted.sent := by
  obtain ⟨header, identity, done⟩ := bind_ok _ _ _ done
  rw [asked.clientid] at identity
  cases identity
  have enf := replied_body clients client args.isLocal args.ticket _ asked.known (enf_body env args)
  split at done
  · cases done
    exact ⟨known, enf⟩
  · obtain ⟨handle, _, done⟩ := bind_ok _ _ _ done
    split at done
    · cases done
      exact ⟨enqueue_known clients client args _ _ asked (record_known clients space _ known), enf⟩
    · rename_i result _
      obtain ⟨order, _, done⟩ := bind_ok _ _ _ done
      by_cases fails : order ≠ 0
      · rw [if_pos fails] at done
        cases done
      rw [if_neg fails] at done
      obtain ⟨reply, responded, done⟩ := bind_ok _ _ _ done
      cases done
      exact ⟨⟨known.named, known.bcast, known.connect⟩, replied_body clients client args.isLocal args.ticket reply asked.known
        (read_response_body env args.isLocal args.ticket result reply responded)⟩

theorem bcast_replied (env : Platform) (clients : List Identity) (client : Identity) (args : HandlerArg) (space : TsdElement)
    (name : Bytes) (acted : Acted) (asked : Asked clients client args) (known : space.Known clients)
    (done : bcastReadTuple env args space name = .ok acted) : acted.space.Known clients ∧ Replied clients acted.sent := by
  obtain ⟨header, identity, done⟩ := bind_ok _ _ _ done
  rw [asked.clientid] at identity
  cases identity
  have enf := replied_body clients client args.isLocal args.ticket _ asked.known (enf_body env args)
  split at done
  · cases done
    exact ⟨known, enf⟩
  · obtain ⟨handle, _, done⟩ := bind_ok _ _ _ done
    split at done
    · cases done
      refine ⟨⟨known.named, fun request member => ?_, known.connect⟩, enf⟩
      simp only at member
      split at member
      · rcases List.mem_append.mp member with old | new
        · exact known.bcast request old
        · rw [List.mem_singleton.mp new]
      · exact known.bcast request member
    · rename_i result _
      obtain ⟨reply, responded, done⟩ := bind_ok _ _ _ done
      cases done
      rw [bcast_response_same] at responded
      exact ⟨known, replied_body clients client args.isLocal args.ticket reply asked.known
        (read_response_body env args.isLocal args.ticket result reply responded)⟩

def TsdElement.NamedFirst (space : TsdElement) : Prop :=
  ∃ first later, space.namedQueue = first :: later ∧ first.name ≠ .null

theorem fetch_replied (env : Platform) (clients : List Identity) (client : Identity) (args : HandlerArg) (space : TsdElement)
    (acted : Acted) (asked : Asked clients client args) (known : space.Known clients)
    (done : fetchTuple env args space = .ok acted) :
    acted.space.Known clients ∧ (args.isLocal = true ∧ space.NamedFirst → LeftOpen args.isLocal acted.sent) ∧
      (¬ (args.isLocal = true ∧ space.NamedFirst) → Replied clients acted.sent) := by
  obtain ⟨header, identity, done⟩ := bind_ok _ _ _ done
  rw [asked.clientid] at identity
  cases identity
  cases queue : space.namedQueue with
  | nil =>
      simp only [queue] at done
      cases done
      refine ⟨enqueue_known clients client args _ _ asked (record_known clients space _ known), ?_, fun _ =>
        replied_body clients client args.isLocal args.ticket _ asked.known (enf_body env args)⟩
      rintro ⟨_, first, later, same, _⟩
      rw [queue] at same
      cases same
  | cons first later =>
      simp only [queue] at done
      obtain ⟨reply, responded, done⟩ := bind_ok _ _ _ done
      cases done
      have shape := fetch_response_body env args.isLocal args.ticket first reply responded
      refine ⟨⟨known.named, known.bcast, known.connect⟩, ?_, fun closed => ?_⟩
      · rintro ⟨here, head, rest, same, stored⟩
        rw [queue] at same
        injection same with sameFirst _
        rw [if_pos ⟨here, sameFirst ▸ stored⟩] at shape
        obtain ⟨front, last, whole, announces⟩ := shape
        exact ⟨_ :: front, last, by rw [frames_on_here, whole]; rfl, announces⟩
      · have unnamed : ¬ (args.isLocal = true ∧ first.name ≠ .null) := fun named =>
          closed ⟨named.1, first, later, queue, named.2⟩
        rw [if_neg unnamed] at shape
        exact replied_body clients client args.isLocal args.ticket reply asked.known shape

theorem term_replied (env : Platform) (self : Tsd) (clients : List Identity) (space : TsdElement) (acted : Acted)
    (known : space.Known clients) (done : termSpace env self space = .ok acted) :
    acted.space.Known clients ∧ Replied clients acted.sent := by
  have stopped := decomission_space self space
  have token := (decomission_frames self space).1
  unfold termSpace at done
  generalize sendDecomissionSignal self space = signal at done stopped token
  obtain ⟨off, signal⟩ := signal
  simp only at stopped token
  subst stopped
  obtain ⟨⟨cleared, sent⟩, clear, done⟩ := bind_ok _ _ _ done
  cases done
  obtain ⟨named, namedSent, clear⟩ := bind_ok _ _ _ clear
  obtain ⟨bcast, bcastSent, clear⟩ := bind_ok _ _ _ clear
  split at clear
  · cases clear
  cases clear
  have terms : ∀ (requests : List BlockingRequest) (outs : List (List Out)),
      (∀ request ∈ requests, request.clientid = .freed ∨ request.From clients) →
      requests.mapM (sendTerm env) = .ok outs → Replied clients outs.flatten := by
    intro requests
    induction requests with
    | nil =>
        intro outs _ mapped
        cases mapped
        exact replied_nil clients
    | cons request requests ih =>
        intro outs each mapped
        rw [List.mapM_cons] at mapped
        obtain ⟨first, sent, mapped⟩ := bind_ok _ _ _ mapped
        obtain ⟨others, rest, mapped⟩ := bind_ok _ _ _ mapped
        cases mapped
        obtain ⟨header, identity, sent⟩ := bind_ok _ _ _ sent
        cases sent
        rcases each request (by simp) with freed | ⟨client, there, same⟩
        · rw [freed] at identity
          cases identity
        · rw [same] at identity
          cases identity
          rw [List.flatten_cons]
          exact replied_append clients _ _ (replied_body clients client request.isLocal request.ticket _ there
            (body_frames request.isLocal request.ticket [] _ [])) (ih others (fun other member => each other (by simp [member])) rest)
  refine ⟨⟨fun _ member => absurd member List.not_mem_nil, fun _ member => absurd member List.not_mem_nil, known.connect⟩,
    replied_append clients _ _ (fun isLocal => ?_)
    (replied_append clients _ _ (terms _ named (fun request member => Or.inr (known.named request member).2) namedSent)
      (terms _ bcast (fun request member => Or.inl (known.bcast request member)) bcastSent))⟩
  rw [token isLocal]
  exact Multipart.complete_nil _ _

-- The request that leaves a message without its end: TsPop or TsPeek, blocking or not, of a local client
-- while the first tuple has a name.
def Arrival.LeavesOpen (daemon : Daemon) (arrival : Arrival) : Prop :=
  arrival.ts.isLocal = true ∧ (∃ takes blocking, arrival.call = .tsOutFetch takes blocking) ∧
    ∃ space, daemon.self.spaceTable arrival.ts.tsname.chars = some space ∧ space.isActivated = true ∧ space.NamedFirst

def Daemon.Known (daemon : Daemon) : Prop :=
  ∀ spaceName space, daemon.self.spaceTable spaceName = some space → space.Known daemon.clients

theorem act_replied (env : Platform) (self : Tsd) (clients : List Identity) (client : Identity) (args : HandlerArg)
    (space : TsdElement) (call : Call) (bytes : Bytes) (acted : Acted) (asked : Asked clients client args)
    (action : args.action = call.command) (known : space.Known clients)
    (done : call.act env self args space bytes = .ok acted) :
    acted.space.Known clients ∧
      (args.isLocal = true ∧ (∃ takes blocking, call = .tsOutFetch takes blocking) ∧ space.NamedFirst →
        LeftOpen args.isLocal acted.sent) ∧
      (¬ (args.isLocal = true ∧ (∃ takes blocking, call = .tsOutFetch takes blocking) ∧ space.NamedFirst) →
        Replied clients acted.sent) := by
  cases call with
  | tsOutFetch takesIt blocking => simpa using fetch_replied env clients client args space acted asked known done
  | tsOpen mode => simpa using connect_replied env self clients client args space mode acted asked known done
  | tsInPut name data => simpa using put_replied env self clients args space name.chars bytes acted action known done
  | tsInAdd anonId nonzero data => simpa using add_replied env self clients args space anonId bytes _ acted action known done
  | tsOutQuery takesIt blocking name => simpa using read_replied env clients client args space name.chars acted asked known done
  | tsBcastRead blocking name => simpa using bcast_replied env clients client args space name.chars acted asked known done
  | tsClose => simpa using term_replied env self clients space acted known done

theorem step_replied (env : Platform) (daemon next : Daemon) (arrival : Arrival) (known : daemon.Known)
    (taken : daemon.step env arrival = some next) :
    next.Known ∧ ∃ sent, next.sent = daemon.sent ++ sent ∧ (arrival.LeavesOpen daemon → LeftOpen arrival.ts.isLocal sent) ∧
      (¬ arrival.LeavesOpen daemon → Replied next.clients sent) := by
  obtain ⟨handled, served, same⟩ := step_served env daemon next arrival taken
  subst same
  have fresh : (daemon.clients ++ [arrival.client])[daemon.clients.length]? = some arrival.client := by simp
  cases served with
  | refused closed =>
      refine ⟨fun spaceName space found => known_later _ _ _ (known spaceName space found), _, rfl, ?_, fun _ => ?_⟩
      · rintro ⟨_, _, space, found, active, _⟩
        rw [(closed space found).2] at active
        cases active
      · exact replied_body _ arrival.client _ _ _ fresh (body_frames _ _ [] _ [])
  | acted space bytes rest acted there active payload done =>
      obtain ⟨kept, opens, replies⟩ := act_replied env daemon.self (daemon.clients ++ [arrival.client]) arrival.client
        (arrival.args daemon.clients.length) space arrival.call bytes acted ⟨rfl, fresh⟩ rfl
        (known_later _ _ _ (known _ _ there)) done
      refine ⟨fun spaceName other found => ?_, _, rfl, ?_, fun closed => replies ?_⟩
      · obtain ⟨_, rfl⟩ | ⟨_, before⟩ := update_at _ _ _ _ _ found
        · exact kept
        · exact known_later _ _ _ (known _ _ before)
      · rintro ⟨here, fetch, other, found, _, named⟩
        exact opens ⟨here, fetch, Option.some.inj (there.symm.trans found) ▸ named⟩
      · rintro ⟨here, fetch, named⟩
        have running : space.isActivated = true := by
          rcases active with connect | running
          · obtain ⟨takesIt, blocking, call⟩ := fetch
            rw [call] at connect
            cases takesIt <;> cases blocking <;> cases connect
          · exact running
        exact closed ⟨here, fetch, space, there, running, named⟩

theorem left_open_incomplete (clients : List Identity) (before sent : List Out) (isLocal : Bool) (leftOpen : LeftOpen isLocal sent) :
    ¬ Replied clients (before ++ sent) := by
  obtain ⟨front, last, same, announces⟩ := leftOpen
  intro replied
  have complete := replied isLocal
  rw [frames_on_append, same, ← List.append_assoc] at complete
  rw [Multipart.complete_last _ _ _ _ complete] at announces
  cases announces

theorem heard_replied (daemon next : Daemon) (result : Except Stop (Tsd × List Out))
    (fine : ∀ self sent, result = .ok (self, sent) →
      (∀ spaceName space, self.spaceTable spaceName = some space → space.Known daemon.clients) ∧ Replied daemon.clients sent)
    (taken : daemon.heard result = some next) :
    next.Known ∧ next.clients = daemon.clients ∧ ∃ sent, next.sent = daemon.sent ++ sent ∧ Replied next.clients sent := by
  cases result with
  | error stop => cases taken
  | ok heard =>
      obtain ⟨self, sent⟩ := heard
      obtain ⟨kept, replied⟩ := fine self sent rfl
      cases taken
      exact ⟨kept, rfl, sent, rfl, replied⟩

theorem relay_replied (clients : List Identity) (tk : GenericToken) : Replied clients (relay tk) := by
  intro isLocal
  unfold relay
  split
  · rw [frames_on_token]
    exact Multipart.complete_nil _ _
  · exact Multipart.complete_nil _ _

theorem send_endpoint_replied (env : Platform) (clients : List Identity) (direct : Bytes) (requests : List BlockingRequest)
    (outs : List (List Out)) (known : ∀ request ∈ requests, request.From clients)
    (sent : requests.mapM (sendEndpoint env direct) = .ok outs) : Replied clients outs.flatten := by
  induction requests generalizing outs with
  | nil =>
      cases sent
      exact replied_nil clients
  | cons request requests ih =>
      rw [List.mapM_cons] at sent
      obtain ⟨first, one, sent⟩ := bind_ok _ _ _ sent
      obtain ⟨others, rest, sent⟩ := bind_ok _ _ _ sent
      cases sent
      obtain ⟨client, there, same⟩ := known request (by simp)
      obtain ⟨header, identity, one⟩ := bind_ok _ _ _ one
      obtain ⟨endpoint, _, one⟩ := bind_ok _ _ _ one
      obtain ⟨str, named, one⟩ := bind_ok _ _ _ one
      obtain ⟨len, body, shape⟩ := send_str_frames _ _ _ _ _ _ named
      subst shape
      cases one
      rw [same] at identity
      cases identity
      rw [List.flatten_cons]
      exact replied_append clients _ _ (replied_body clients client request.isLocal request.ticket _ there
        (body_frames request.isLocal request.ticket [len] body [])) (ih others (fun other member => known other (by simp [member])) rest)

theorem connect_token_replied (env : Platform) (self after : Tsd) (clients : List Identity) (tk : GenericToken) (sent : List Out)
    (known : ∀ spaceName space, self.spaceTable spaceName = some space → space.Known clients)
    (done : connectTokenNext env self tk = .ok (after, sent)) :
    (∀ spaceName space, after.spaceTable spaceName = some space → space.Known clients) ∧ Replied clients sent := by
  obtain ⟨spaceName, _, done⟩ := bind_ok _ _ _ done
  cases there : self.spaceTable spaceName with
  | none =>
      simp only [there] at done
      cases done
      exact ⟨known, relay_replied clients tk⟩
  | some element =>
      simp only [there] at done
      split at done
      · cases done
        exact ⟨known, replied_nil clients⟩
      · split at done
        · cases done
        · obtain ⟨answers, answered, done⟩ := bind_ok _ _ _ done
          cases done
          obtain ⟨named, bcast, connect⟩ := known spaceName element there
          refine ⟨fun other space found => ?_, replied_append clients _ _
            (send_endpoint_replied env clients _ _ answers (fun request member => ?_) answered) (relay_replied clients tk)⟩
          · obtain ⟨_, rfl⟩ | ⟨_, before⟩ := update_at _ _ _ _ _ found
            · split
              · exact ⟨named, bcast, by simp⟩
              · exact ⟨named, bcast, connect⟩
            · exact known other space before
          · split at member
            · exact connect request member
            · cases member

theorem term_token_replied (self after : Tsd) (clients : List Identity) (tk : GenericToken) (sent : List Out)
    (known : ∀ spaceName space, self.spaceTable spaceName = some space → space.Known clients)
    (done : termTokenNext self tk = .ok (after, sent)) :
    (∀ spaceName space, after.spaceTable spaceName = some space → space.Known clients) ∧ Replied clients sent := by
  obtain ⟨spaceName, _, done⟩ := bind_ok _ _ _ done
  cases there : self.spaceTable spaceName with
  | none =>
      simp only [there] at done
      cases done
      exact ⟨known, replied_nil clients⟩
  | some element =>
      simp only [there] at done
      cases done
      obtain ⟨named, bcast, connect⟩ := known spaceName element there
      refine ⟨fun other space found => ?_, fun isLocal => ?_⟩
      · obtain ⟨_, rfl⟩ | ⟨_, before⟩ := update_at _ _ _ _ _ found
        · exact ⟨named, bcast, connect⟩
        · exact known other space before
      · split
        · rw [frames_on_token]
          exact Multipart.complete_nil _ _
        · exact Multipart.complete_nil _ _

def Turn.LeavesOpen (daemon : Daemon) : Turn → Prop
  | .receives arrival => arrival.LeavesOpen daemon
  | .activates _ => False
  | .decomissions _ => False

theorem turn_replied (env : Platform) (daemon next : Daemon) (turn : Turn) (known : daemon.Known)
    (taken : daemon.turn env turn = some next) :
    next.Known ∧ (∃ more, next.clients = daemon.clients ++ more) ∧
      ∃ sent, next.sent = daemon.sent ++ sent ∧ (turn.LeavesOpen daemon → ∃ isLocal, LeftOpen isLocal sent) ∧
        (¬ turn.LeavesOpen daemon → Replied next.clients sent) := by
  cases turn with
  | receives arrival =>
      obtain ⟨kept, sent, same, opens, replies⟩ := step_replied env daemon next arrival known taken
      obtain ⟨handled, _, shape⟩ := step_served env daemon next arrival taken
      exact ⟨kept, ⟨[arrival.client], by rw [shape]⟩, sent, same, fun leaves => ⟨_, opens leaves⟩, replies⟩
  | activates tk =>
      obtain ⟨kept, clients, sent, same, replied⟩ := heard_replied daemon next _
        (fun self sent done => connect_token_replied env daemon.self self daemon.clients tk sent known done) taken
      exact ⟨kept, ⟨[], by simp [clients]⟩, sent, same, False.elim, fun _ => replied⟩
  | decomissions tk =>
      obtain ⟨kept, clients, sent, same, replied⟩ := heard_replied daemon next _
        (fun self sent done => term_token_replied daemon.self self daemon.clients tk sent known done) taken
      exact ⟨kept, ⟨[], by simp [clients]⟩, sent, same, False.elim, fun _ => replied⟩

-- In any run the daemon's messages are all complete, and addressed to the clients they answer, exactly when no local
-- client fetches a tuple that has a name.
theorem replies_complete (env : Platform) (endpoint : Bytes) (replicationFactor : UInt32) (spaces : List SngNamespace)
    (turns : List Turn) :
    Runs.Throughout (Daemon.turn env) Daemon.Complete (Daemon.start endpoint replicationFactor spaces) turns ↔
      Runs.Meets (Daemon.turn env) (fun daemon turn => ¬ turn.LeavesOpen daemon)
        (Daemon.start endpoint replicationFactor spaces) turns := by
  have initial : (Daemon.start endpoint replicationFactor spaces).Known := by
    intro spaceName space found
    obtain ⟨config, _, _, same⟩ := created_space endpoint replicationFactor spaces spaceName space found
    subst same
    exact ⟨by simp [createElement], by simp [createElement], by simp [createElement]⟩
  refine Runs.throughout_iff_meets (Daemon.turn env) (fun _ => True) _ _ Daemon.Known ?_ ?_ _ turns (by simp) initial
    (replied_nil _)
  · intro daemon turn next _ known taken
    exact (turn_replied env daemon next turn known taken).1
  · intro daemon turn next _ known complete taken
    obtain ⟨_, ⟨more, clients⟩, sent, same, opens, replies⟩ := turn_replied env daemon next turn known taken
    rw [Daemon.Complete, same]
    constructor
    · intro good leaves
      obtain ⟨isLocal, leftOpen⟩ := opens leaves
      exact left_open_incomplete _ _ _ _ leftOpen good
    · intro closed
      refine replied_append _ _ _ ?_ (replies closed)
      rw [clients]
      exact replied_later _ _ _ complete

-- A local client takes a tuple with a name off the queue.
theorem local_pop_left_open :
    ∃ daemon, Runs.run (Daemon.turn samplePlatform) sampleStart
        [sampleTurn otherClient false (.tsInPut sampleName samplePayload),
          sampleTurn sampleClient true (.tsOutFetch true false)] = some daemon ∧ ¬ daemon.Complete := by
  have reached : ∃ daemon, Runs.run (Daemon.turn samplePlatform) sampleStart
      [sampleTurn otherClient false (.tsInPut sampleName samplePayload),
        sampleTurn sampleClient true (.tsOutFetch true false)] = some daemon ∧
      framesOn true daemon.sent = [⟨1, [67], true⟩, ⟨1, [0, 0, 0, 10], true⟩, ⟨1, [0, 0, 0, 2], true⟩] ++ [⟨1, [97, 0], true⟩] :=
    ⟨_, rfl, rfl⟩
  obtain ⟨daemon, ran, frames⟩ := reached
  refine ⟨daemon, ran, fun complete => ?_⟩
  have last := Multipart.complete_last _ _ _ _ (frames ▸ complete true)
  cases last

end Synergy
