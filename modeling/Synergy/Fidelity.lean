import Synergy.Dialogue

set_option autoImplicit false

namespace Synergy

-- ts_in with TsPut; ts_out with TsGet, TsRead and their blocking forms.
def Call.putsOrGets : Call → Bool
  | .tsInPut _ _ => true
  | .tsOutQuery _ _ _ => true
  | _ => false

-- p2pm_recv_str gets a name of this length.
def Name.Arrives (name : Name) : Prop := p2pmRecvStr (UInt32.ofNat (name.chars.length + 1)) (name.chars ++ [0]) = .ok name.chars

theorem put_arrives (env : Platform) (self : Tsd) (ticket : Nat) (arrival : Arrival) (name : Name) (data : Payload) (handled : Handled)
    (put : arrival.call = .tsInPut name data)
    (active : ∃ space, self.spaceTable arrival.ts.tsname.chars = some space ∧ space.isActivated = true)
    (done : handler env self arrival.ts.isLocal ticket arrival.input = .ok handled) : name.Arrives := by
  have input : arrival.input = ⟨⟨arrival.client.chars, true⟩ :: (arrival.call.frames arrival.ts ++ []), false, arrival.chunks⟩ := by
    rw [Arrival.input, List.append_nil]
  rw [input] at done
  rcases handler_reaches env self arrival.ts arrival.client ticket arrival.call [] false arrival.chunks with
    ⟨_, closed⟩ | ⟨space, _, _, reached⟩
  · obtain ⟨space, found, active⟩ := active
    rw [(closed space found).2] at active
    cases active
  · rw [reached, put] at done
    obtain ⟨result, dispatched, _⟩ := bind_ok _ _ _ done
    simp only [dispatch, Call.command] at dispatched
    rw [namedQueueWriteHandler, if_pos rfl] at dispatched
    obtain ⟨⟨chars, middle⟩, received, _⟩ := bind_ok _ _ _ dispatched
    simp only [Call.arguments, List.append_assoc] at received
    have first := recv_uint32_frame arrival.ts.host env.host (UInt32.ofNat (name.chars.length + 1)) true true
      (⟨name.chars ++ [0], !arrival.ts.isLocal⟩ :: (tsInData arrival.ts data ++ [])) arrival.chunks
    simp only [sendUint32Frame] at first
    simp only [recvStr, sendStrFrames, p2pmSendStr, List.cons_append, List.nil_append, Call.commandIsLast, Bool.not_false, first, zmqRecv,
      bind, Except.bind] at received
    cases recv_send_str name.chars name.clean with
    | inl arrives => exact arrives
    | inr lost => simp only [lost, reduceCtorEq] at received

theorem put_whole (env : Platform) (self : Tsd) (ticket : Nat) (arrival : Arrival) (name : Name) (data : Payload)
    (item : Bytes × List Chunk)
    (put : arrival.call = .tsInPut name data) (here : arrival.ts.isLocal = true) (whole : recvItem arrival.chunks = .ok item)
    (waits : handler env self arrival.ts.isLocal ticket arrival.input = .error .blocked) : False := by
  have input : arrival.input = ⟨⟨arrival.client.chars, true⟩ :: (arrival.call.frames arrival.ts ++ []), false, arrival.chunks⟩ := by
    rw [Arrival.input, List.append_nil]
  rw [input] at waits
  rcases handler_reaches env self arrival.ts arrival.client ticket arrival.call [] false arrival.chunks with
    ⟨refused, _⟩ | ⟨space, _, _, reached⟩
  · rw [refused] at waits
    cases waits
  · rw [reached, put] at waits
    have dispatched : NeverWaits (namedQueueWriteHandler env self ⟨.str arrival.client.chars, .tsPut, arrival.ts.isLocal, ticket⟩ space
        ⟨(Call.tsInPut name data).arguments arrival.ts ++ [], true, arrival.chunks⟩) := by
      rw [namedQueueWriteHandler, if_pos rfl]
      simp only [Call.arguments, List.append_assoc]
      refine recv_name_never arrival.ts.host env.host name _ true _ arrival.chunks _ ?_
      simp only [here, if_true, tsInData, List.nil_append, Bool.not_true, recvItemPipe, whole, bind, Except.bind, pure, Except.pure]
      exact returns_never _ [] item.2 (put_never env self _ space name.chars item.1)
    have never := never_bind _ (fun result : Acted × Input =>
        (.ok ⟨{ self with spaceTable := Function.update self.spaceTable arrival.ts.tsname.chars (some result.1.space) },
          result.1.sent, result.2⟩ : Except Stop Handled)) dispatched fun _ => never_ok _
    exact absurd rfl (Outcomes.holds_stop (fun stop => stop ≠ Stop.blocked) _ _ _ never waits)

theorem item_whole (data : Payload) (chunks later : List Chunk) (item : Bytes × List Chunk)
    (sent : sendItem data.bytes = .ok (chunks ++ later))
    (received : recvItem chunks = .ok item) : later = [] := by
  obtain ⟨all, sends, receives⟩ := recv_send_item data.bytes data.nonempty data.bounded
  cases sends.symm.trans sent
  have same := (recv_item_more chunks item.2 later item.1 received).symm.trans receives
  simp only [Except.ok.injEq, Prod.mk.injEq, List.append_eq_nil_iff] at same
  exact same.2.2

theorem item_some (data : Payload) (sent : sendItem data.bytes = .ok []) : False := by
  obtain ⟨all, sends, receives⟩ := recv_send_item data.bytes data.nonempty data.bounded
  cases sends.symm.trans sent
  cases receives

variable {ι : Type} [DecidableEq ι]

def Motion.PutsOrGets : Motion ι → Prop
  | .calls _ call => call.putsOrGets = true
  | _ => True

-- The space is open, and only puts and gets are under way.
structure System.Serving (parties : Parties ι) (system : System ι) : Prop where
  active : ∃ space, system.daemon.self.spaceTable parties.spaceName.chars = some space ∧ space.isActivated = true
  up : ∀ i, ∀ message ∈ (system.sessions i).up, message.2.putsOrGets = true
  receiving : ∀ request, system.receiving = some request → request.call.putsOrGets = true
  taken : ∀ intake ∈ system.taken, intake.call.putsOrGets = true
  arrived : ∀ intake ∈ system.taken, ∀ name data, intake.call = .tsInPut name data → name.Arrives

theorem change_active (env : Platform) (args : HandlerArg) (call : Call) (bytes : Bytes) (space after : TsdElement)
    (postings : List Posting)
    (change : Change env args call bytes space after postings) (only : call.putsOrGets = true) : after.isActivated = space.isActivated := by
  cases change with
  | connected after word endpoint opens =>
      obtain ⟨mode, opens⟩ := opens
      rw [opens] at only
      cases only
  | put tuple written => rfl
  | missed query unwanted asked waiting => exact enqueue_active space _ args query
  | found query before behind tuple asked split wanted skipped => rfl
  | closed after closes =>
      rw [closes] at only
      cases only

omit [DecidableEq ι] in
theorem attempt_serving (env : Platform) (parties : Parties ι) (system next : System ι) (request : Receiving ι)
    (serving : system.Serving parties) (owned : system.Owned parties) (only : request.call.putsOrGets = true)
    (taken : system.attempt env parties request = some next) : next.Serving parties := by
  obtain ⟨space, found, active⟩ := serving.active
  cases attempt_handler env parties system next request taken with
  | inr waits =>
      obtain ⟨_, same⟩ := waits
      subst same
      refine ⟨serving.active, serving.up, fun other reading => ?_, serving.taken, serving.arrived⟩
      cases reading
      exact only
  | inl here =>
      obtain ⟨handled, done, same⟩ := here
      have arrives := fun name data put => put_arrives env system.daemon.self system.daemon.clients.length (request.arrival parties) name data
        handled put ⟨space, found, active⟩ done
      have served := handler_call env system.daemon.self (parties.ts request.handle) (parties.identity request.handle)
        system.daemon.clients.length request.call [] false request.chunks handled
        (by simpa only [Arrival.input, Receiving.arrival, Parties.ts, List.append_nil] using done)
      subst same
      refine ⟨?_, serving.up, (fun _ reading => by cases reading), fun intake member => ?_, fun intake member => ?_⟩
      · cases served with
        | refused closed =>
            rw [(closed space found).2] at active
            cases active
        | acted other bytes rest acted there ready payload performed =>
            cases Option.some.inj (there.symm.trans found)
            obtain ⟨inside, same, fine⟩ := owned.space
            cases Option.some.inj (same.symm.trans found)
            have plain : request.call.plain = true := by
              cases same : request.call <;> simp [same, Call.putsOrGets, Call.plain] at only ⊢
            obtain ⟨postings, change, _⟩ := act_change env system.daemon.self
              ⟨.str (parties.identity request.handle).chars, request.call.command, parties.isLocal request.handle,
                system.daemon.clients.length⟩ space request.call bytes acted _ (parties.identity request.handle).chars
                  fine.sound plain rfl rfl
              ready performed
            exact ⟨acted.space, Function.update_self .., (change_active env _ _ bytes space acted.space postings change only).trans active⟩
      · cases List.mem_append.mp member with
        | inl early => exact serving.taken intake early
        | inr last =>
            rw [List.mem_singleton.mp last]
            exact only
      · cases List.mem_append.mp member with
        | inl early => exact serving.arrived intake early
        | inr last =>
            rw [List.mem_singleton.mp last]
            exact arrives

theorem step_serving (env : Platform) (parties : Parties ι) (system next : System ι) (motion : Motion ι) (serving : system.Serving parties)
    (owned : system.Owned parties) (only : motion.PutsOrGets) (taken : system.step env parties motion = some next) :
    next.Serving parties := by
  cases motion with
  | calls i call =>
      obtain ⟨chunks, _, _, same⟩ := call_cases parties system next i call taken
      subst same
      refine ⟨serving.active, update_holds (fun _ session => ∀ message ∈ session.up, message.2.putsOrGets = true) _ i _ ?_
        (fun j _ => serving.up j), serving.receiving, serving.taken, serving.arrived⟩
      intro message member
      cases List.mem_append.mp member with
      | inl early => exact serving.up i message early
      | inr last =>
          rw [List.mem_singleton.mp last]
          exact only
  | writes i =>
      obtain ⟨chunk, later, _, _, same⟩ := write_cases system next i taken
      subst same
      exact ⟨serving.active, update_holds (fun _ session => ∀ message ∈ session.up, message.2.putsOrGets = true) _ i _ (serving.up i)
        (fun j _ => serving.up j), serving.receiving, serving.taken, serving.arrived⟩
  | hears i =>
      obtain ⟨call, first, later, out, input, _, _, _, same⟩ := hear_cases parties system next i taken
      subst same
      exact ⟨serving.active, update_holds (fun _ session => ∀ message ∈ session.up, message.2.putsOrGets = true) _ i _ (serving.up i)
        (fun j _ => serving.up j), serving.receiving, serving.taken, serving.arrived⟩
  | takes i =>
      obtain ⟨number, call, later, _, up, attempted⟩ := take_cases env parties system next i taken
      have first := serving.up i (number, call) (by simp [up])
      refine attempt_serving env parties (system.setSession i { system.sessions i with up := later }) next ⟨i, number, call, []⟩
        ⟨serving.active, update_holds (fun _ session => ∀ message ∈ session.up, message.2.putsOrGets = true) _ i _ ?_
          (fun j _ => serving.up j),
          serving.receiving, serving.taken, serving.arrived⟩ ⟨owned.tickets, owned.space⟩ first attempted
      exact fun message member => serving.up i message (by simp [up, member])
  | reads =>
      obtain ⟨request, passed, reading, _, attempted⟩ := read_cases env parties system next taken
      exact attempt_serving env parties { system with slot := none, receiving := none } next
        { request with chunks := request.chunks ++ [passed.chunk] }
        ⟨serving.active, serving.up, (fun _ none => by cases none), serving.taken, serving.arrived⟩ ⟨owned.tickets, owned.space⟩
        (serving.receiving request reading) attempted

-- The message with this number is on its way or in handler.
def System.Underway (system : System ι) (i : ι) (number : Nat) : Prop :=
  (∃ request, system.receiving = some request ∧ request.handle = i ∧ request.number = number) ∨
    ∃ call, (number, call) ∈ (system.sessions i).up

-- Whatever is in ts_tsd_pipe or still to be written belongs to a message that has not been handled, and handler waits for a chunk that comes.
structure System.Ordered (parties : Parties ι) (system : System ι) : Prop where
  slot : ∀ passed, system.slot = some passed → parties.isLocal passed.handle = true ∧ system.Underway passed.handle passed.number
  rest : ∀ request, system.receiving = some request →
    inPipe system.slot request.handle request.number ++ (system.sessions request.handle).unwritten request.number ≠ []
  passing : ∀ i chunk later, (system.sessions i).stage = .passing (chunk :: later) →
    parties.isLocal i = true ∧ system.Underway i ((system.sessions i).made - 1)

theorem start_ordered (parties : Parties ι) (self : Tsd) : (System.start self : System ι).Ordered parties :=
  ⟨(fun _ full => by cases full), (fun _ reading => by cases reading), fun _ _ _ stage => by cases stage⟩

theorem writes_some (ts : Ts) (call : Call) (here : ts.isLocal = true) (writes : call.writes = true) : call.passes ts ≠ .ok [] := by
  intro passes
  cases call with
  | tsInPut name data =>
      simp only [Call.passes, here, if_true] at passes
      exact item_some data passes
  | tsInAdd anonId nonzero data =>
      simp only [Call.passes, here, if_true] at passes
      exact item_some data passes
  | _ => cases writes

omit [DecidableEq ι] in
theorem last_unwritten (session : Session) (number : Nat) (other : session.unwritten number ≠ []) : number + 1 = session.made := by
  by_contra apart
  exact other (if_neg apart)

theorem ordered_in_turn (env : Platform) (parties : Parties ι) (one : ∀ i j, parties.isLocal i = true → parties.isLocal j = true → i = j)
    (system next : System ι) (motion : Motion ι) (ordered : system.Ordered parties) (matched : system.Matched parties)
    (taken : system.step env parties motion = some next) : motion.InTurn parties system := by
  cases motion with
  | calls i call => trivial
  | reads => trivial
  | hears i => trivial
  | writes i =>
      intro request reading
      obtain ⟨chunk, later, stage, free, _⟩ := write_cases system next i taken
      have fits := matched.current request reading
      have rest := ordered.rest request reading
      have same := one request.handle i fits.here (ordered.passing i chunk later stage).1
      rw [free, inPipe, List.nil_append] at rest
      have last := last_unwritten _ _ rest
      rw [same] at last
      exact ⟨same, last⟩
  | takes i =>
      intro number call later space passed up here writes _ _ full
      obtain ⟨_, _, _, free, _, _⟩ := take_cases env parties system next i taken
      obtain ⟨side, underway⟩ := ordered.slot passed full
      have same := one passed.handle i side here
      refine ⟨same, ?_⟩
      rw [same] at underway
      cases underway with
      | inl reading =>
          obtain ⟨request, reading, _⟩ := reading
          rw [free] at reading
          cases reading
      | inr waits =>
          obtain ⟨other, member⟩ := waits
          have before := matched.sessions i
          have numbered := before.numbered
          rw [up] at member
          rw [up, List.pairwise_cons] at numbered
          cases List.mem_cons.mp member with
          | inl first => exact congrArg Prod.fst first
          | inr behind =>
              -- the first message would have neither chunks in the pipe nor any still to be written
              have earlier := numbered.1 _ behind
              dsimp only at earlier
              have passes := before.waiting number call (by simp [up])
              have made := before.made (passed.number, other) (by simp [up, behind])
              dsimp only at made
              rw [full, inPipe, if_neg fun both => Nat.lt_irrefl number (lt_of_lt_of_eq earlier both.2), Session.unwritten,
                if_neg (by omega)] at passes
              exact absurd passes (writes_some (parties.ts i) call here writes)

omit [DecidableEq ι] in
theorem underway_kept (system next : System ι) (receiving : next.receiving = system.receiving)
    (up : ∀ j, ∀ message ∈ (system.sessions j).up, message ∈ (next.sessions j).up) (j : ι) (number : Nat)
    (underway : system.Underway j number) : next.Underway j number := by
  refine underway.imp (fun reading => ?_) fun waits => ?_
  · rw [receiving]
    exact reading
  · obtain ⟨call, member⟩ := waits
    exact ⟨call, up j _ member⟩

theorem call_ordered (parties : Parties ι) (system next : System ι) (i : ι) (call : Call) (ordered : system.Ordered parties)
    (taken : system.call parties i call = some next) : next.Ordered parties := by
  obtain ⟨chunks, can, passes, same⟩ := call_cases parties system next i call taken
  have idle := can_call_idle (system.sessions i) call can
  have still := underway_kept system next (by rw [same]; rfl) (by
    rw [same]
    exact update_holds (fun j session => ∀ message ∈ (system.sessions j).up, message ∈ session.up) _ i _
      (fun message member => List.mem_append_left _ member) fun j _ message member => member)
  refine ⟨fun passed full => ?_, fun request reading => ?_, fun j chunk later stage => ?_⟩
  · subst same
    obtain ⟨side, underway⟩ := ordered.slot passed full
    exact ⟨side, still _ _ underway⟩
  · subst same
    have rest := ordered.rest request reading
    by_cases here : request.handle = i
    · rw [here, Session.unwritten, idle] at rest
      rw [show (if request.number + 1 = (system.sessions i).made then Stage.idle.unwritten else []) = [] from ite_self [],
        List.append_nil] at rest
      rw [here]
      exact fun none => rest (List.append_eq_nil_iff.mp none).1
    · rw [set_session_other _ i request.handle _ here]
      exact rest
  · by_cases here : j = i
    · subst here same
      simp only [set_session_self] at stage
      have left := stage_unwritten _ call chunks passes
      rw [stage] at left
      refine ⟨(passes_local (parties.ts j) call chunks passes (by rw [← left]; exact List.cons_ne_nil _ _)).1, Or.inr ⟨call, ?_⟩⟩
      simp [System.setSession]
    · have others : next.sessions j = system.sessions j := by
        subst same
        exact set_session_other _ i j _ here
      rw [others] at stage ⊢
      obtain ⟨side, underway⟩ := ordered.passing j chunk later stage
      exact ⟨side, still _ _ underway⟩

theorem write_ordered (parties : Parties ι) (system next : System ι) (i : ι) (ordered : system.Ordered parties)
    (turn : (Motion.writes i).InTurn parties system) (taken : system.write i = some next) : next.Ordered parties := by
  obtain ⟨chunk, later, stage, free, same⟩ := write_cases system next i taken
  obtain ⟨side, last⟩ := ordered.passing i chunk later stage
  have still := underway_kept system next (by rw [same]; rfl) (by
    rw [same]
    exact update_holds (fun j session => ∀ message ∈ (system.sessions j).up, message ∈ session.up) _ i _
      (fun message member => member) fun j _ message member => member)
  refine ⟨fun passed full => ?_, fun request reading => ?_, fun j other rest stages => ?_⟩
  · subst same
    cases full
    exact ⟨side, still i _ last⟩
  · subst same
    obtain ⟨mine, now⟩ := turn request reading
    have number : (system.sessions i).made - 1 = request.number := by omega
    have here : inPipe (some (⟨i, (system.sessions i).made - 1, chunk⟩ : Passed ι)) request.handle request.number = [chunk] :=
      if_pos ⟨mine.symm, number⟩
    intro none
    have front := (List.append_eq_nil_iff.mp none).1
    cases here.symm.trans front
  · by_cases here : j = i
    · subst here
      refine ⟨side, ?_⟩
      have made : (next.sessions j).made = (system.sessions j).made := by
        subst same
        simp [System.setSession]
      rw [made]
      exact still j _ last
    · have others : next.sessions j = system.sessions j := by
        subst same
        exact set_session_other _ i j _ here
      rw [others] at stages ⊢
      obtain ⟨mine, underway⟩ := ordered.passing j other rest stages
      exact ⟨mine, still _ _ underway⟩

theorem hear_ordered (parties : Parties ι) (system next : System ι) (i : ι) (ordered : system.Ordered parties)
    (taken : system.hear parties i = some next) : next.Ordered parties := by
  obtain ⟨call, first, later, out, input, stage, _, _, same⟩ := hear_cases parties system next i taken
  have still := underway_kept system next (by rw [same]; rfl) (by
    rw [same]
    exact update_holds (fun j session => ∀ message ∈ (system.sessions j).up, message ∈ session.up) _ i _
      (fun message member => member) fun j _ message member => member)
  have after : ∀ chunk rest, call.stageAfter (system.sessions i).stage out ≠ .passing (chunk :: rest) := by
    intro chunk rest passing
    cases out with
    | none =>
        rw [Call.stageAfter, stage] at passing
        cases passing
    | some read =>
        cases call with
        | tsOpen mode =>
            rw [Call.stageAfter] at passing
            split at passing <;> cases passing
        | _ => cases passing
  have nothing : (call.stageAfter (system.sessions i).stage out).unwritten = (system.sessions i).stage.unwritten := by
    rw [stage]
    cases here : call.stageAfter (.awaiting call) out with
    | passing chunks =>
        cases chunks with
        | nil => rfl
        | cons chunk rest =>
            rw [stage] at after
            exact absurd here (after chunk rest)
    | _ => rfl
  refine ⟨fun passed full => ?_, fun request reading => ?_, fun j chunk rest stages => ?_⟩
  · subst same
    obtain ⟨side, underway⟩ := ordered.slot passed full
    exact ⟨side, still _ _ underway⟩
  · subst same
    have rest := ordered.rest request reading
    by_cases here : request.handle = i
    · rw [here] at rest ⊢
      simp only [set_session_self, Session.unwritten, nothing] at rest ⊢
      exact rest
    · rw [set_session_other _ i request.handle _ here]
      exact rest
  · by_cases here : j = i
    · subst here same
      simp only [set_session_self] at stages
      exact absurd stages (after chunk rest)
    · have others : next.sessions j = system.sessions j := by
        subst same
        exact set_session_other _ i j _ here
      rw [others] at stages ⊢
      obtain ⟨mine, underway⟩ := ordered.passing j chunk rest stages
      exact ⟨mine, still _ _ underway⟩

omit [DecidableEq ι] in
theorem attempt_payload (env : Platform) (parties : Parties ι) (system next : System ι) (request : Receiving ι)
    (serving : system.Serving parties) (only : request.call.putsOrGets = true)
    (taken : system.attempt env parties request = some next) :
    (∃ handled, next = system.handled parties request handled ∧
        ∃ item, request.call.payload (parties.isLocal request.handle) request.chunks = .ok item) ∨
      next = { system with receiving := some request } ∧ parties.isLocal request.handle = true ∧ request.call.writes = true ∧
        ∀ item, recvItem request.chunks ≠ .ok item := by
  obtain ⟨space, found, active⟩ := serving.active
  cases attempt_handler env parties system next request taken with
  | inl here =>
      obtain ⟨handled, done, same⟩ := here
      refine Or.inl ⟨handled, same, ?_⟩
      have served := handler_call env system.daemon.self (parties.ts request.handle) (parties.identity request.handle)
        system.daemon.clients.length request.call [] false request.chunks handled
        (by simpa only [Arrival.input, Receiving.arrival, Parties.ts, List.append_nil] using done)
      cases served with
      | refused closed =>
          rw [(closed space found).2] at active
          cases active
      | acted other bytes rest acted there ready payload performed => exact ⟨_, payload⟩
  | inr waits =>
      obtain ⟨blocked, same⟩ := waits
      obtain ⟨side, writes, _⟩ := handler_waits env system.daemon.self system.daemon.clients.length (request.arrival parties) blocked
      refine Or.inr ⟨same, side, writes, fun item whole => ?_⟩
      cases call : request.call with
      | tsInPut name data =>
          exact put_whole env system.daemon.self system.daemon.clients.length (request.arrival parties) name data item call side whole blocked
      | _ => simp [Receiving.arrival, call, Call.writes, Call.putsOrGets] at only writes

theorem take_ordered (env : Platform) (parties : Parties ι) (system next : System ι) (i : ι) (ordered : system.Ordered parties)
    (matched : system.Matched parties) (left : next.Matched parties) (serving : system.Serving parties)
    (taken : system.take env parties i = some next) : next.Ordered parties := by
  obtain ⟨number, call, later, free, up, attempted⟩ := take_cases env parties system next i taken
  have before := matched.sessions i
  have first : (number, call) ∈ (system.sessions i).up := by simp [up]
  have only := serving.up i (number, call) first
  have popped : (system.setSession i { system.sessions i with up := later }).Serving parties :=
    ⟨serving.active, update_holds (fun _ session => ∀ message ∈ session.up, message.2.putsOrGets = true) _ i _
      (fun message member => serving.up i message (by simp [up, member])) (fun j _ => serving.up j), serving.receiving, serving.taken,
      serving.arrived⟩
  have behind : ∀ j message, message ∈ (system.sessions j).up →
      j = i ∧ message = (number, call) ∨ message ∈ ((system.setSession i { system.sessions i with up := later }).sessions j).up := by
    intro j message member
    by_cases here : j = i
    · subst here
      rw [up] at member
      rw [set_session_self]
      cases List.mem_cons.mp member with
      | inl same => exact Or.inl ⟨rfl, same⟩
      | inr rest => exact Or.inr rest
    · rw [set_session_other system i j _ here]
      exact Or.inr member
  have stages : ∀ j, ((system.setSession i { system.sessions i with up := later }).sessions j).stage = (system.sessions j).stage ∧
      ((system.setSession i { system.sessions i with up := later }).sessions j).made = (system.sessions j).made := by
    intro j
    by_cases here : j = i
    · subst here
      rw [set_session_self]
      exact ⟨rfl, rfl⟩
    · rw [set_session_other system i j _ here]
      exact ⟨rfl, rfl⟩
  have waits : ∀ j m, system.Underway j m → ∃ other, (m, other) ∈ (system.sessions j).up := by
    intro j m underway
    refine underway.resolve_left fun reading => ?_
    obtain ⟨request, reading, _⟩ := reading
    rw [free] at reading
    cases reading
  -- a chunk of the message, in the pipe or still to be written
  have some_ : ∀ chunks, call.passes (parties.ts i) = .ok chunks → chunks ≠ [] → parties.isLocal i = true ∧ call.writes = true :=
    fun chunks passes some_ => passes_local (parties.ts i) call chunks passes some_
  have slot : ∀ passed, system.slot = some passed → passed.handle = i → passed.number = number →
      parties.isLocal i = true ∧ call.writes = true := by
    intro passed full mine now
    refine some_ _ (before.waiting number call first) fun none => ?_
    have front := (List.append_eq_nil_iff.mp none).1
    rw [full, inPipe, if_pos ⟨mine, now⟩] at front
    cases front
  have rest : ∀ chunk rest, (system.sessions i).stage = .passing (chunk :: rest) → (system.sessions i).made - 1 = number →
      parties.isLocal i = true ∧ call.writes = true := by
    intro chunk rest stage now
    refine some_ _ (before.waiting number call first) fun none => ?_
    have made := before.made (number, call) first
    dsimp only at made
    have back := (List.append_eq_nil_iff.mp none).2
    rw [Session.unwritten, if_pos (by omega), stage] at back
    cases back
  cases attempt_payload env parties _ next _ popped only attempted with
  | inl here =>
      obtain ⟨handled, same, item, payload⟩ := here
      -- a local put is not handled before its first chunk
      have quick : ¬ (parties.isLocal i = true ∧ call.writes = true) := by
        rintro ⟨side, writes⟩
        cases call with
        | tsInPut name data =>
            simp only [Call.payload, side, if_true] at payload
            cases payload
        | _ => simp [Call.putsOrGets, Call.writes] at only writes
      subst same
      refine ⟨fun passed full => ?_, (fun _ reading => by cases reading), fun j chunk unwritten stage => ?_⟩
      · obtain ⟨side, underway⟩ := ordered.slot passed full
        obtain ⟨other, member⟩ := waits _ _ underway
        refine ⟨side, Or.inr ⟨other, ?_⟩⟩
        exact (behind _ _ member).resolve_left fun head => quick (slot passed full head.1 (congrArg Prod.fst head.2))
      · have passing : (system.sessions j).stage = .passing (chunk :: unwritten) := (stages j).1.symm.trans stage
        obtain ⟨side, underway⟩ := ordered.passing j chunk unwritten passing
        obtain ⟨other, member⟩ := waits _ _ underway
        refine ⟨side, Or.inr ⟨other, ?_⟩⟩
        have kept := (behind _ _ member).resolve_left fun head => quick (by
          obtain ⟨here, same⟩ := head
          subst here
          exact rest chunk unwritten passing (congrArg Prod.fst same))
        have made := (stages j).2
        change (_ , other) ∈ ((system.setSession i { system.sessions i with up := later }).sessions j).up
        rw [show ((System.handled _ _ _ _).sessions j).made = (system.sessions j).made from made]
        exact kept
  | inr here =>
      obtain ⟨same, side, writes, _⟩ := here
      have fits := left.current ⟨i, number, call, []⟩ (by rw [same])
      subst same
      have moved : ∀ j m, system.Underway j m →
          ({ system.setSession i { system.sessions i with up := later } with receiving := some ⟨i, number, call, []⟩ } : System ι).Underway j m := by
        intro j m underway
        obtain ⟨other, member⟩ := waits j m underway
        cases behind j _ member with
        | inl head => exact Or.inl ⟨_, rfl, head.1.symm, (congrArg Prod.fst head.2).symm⟩
        | inr kept => exact Or.inr ⟨other, kept⟩
      refine ⟨fun passed full => ?_, fun request reading => ?_, fun j chunk rest stage => ?_⟩
      · obtain ⟨side, underway⟩ := ordered.slot passed full
        exact ⟨side, moved _ _ underway⟩
      · cases reading
        intro none
        have passes := fits.passes
        dsimp only at passes
        rw [List.nil_append, none] at passes
        exact writes_some (parties.ts i) call side writes passes
      · have stage : (system.sessions j).stage = .passing (chunk :: rest) := (stages j).1.symm.trans stage
        obtain ⟨side, underway⟩ := ordered.passing j chunk rest stage
        refine ⟨side, ?_⟩
        have made := (stages j).2
        change System.Underway _ j (((system.setSession i { system.sessions i with up := later }).sessions j).made - 1)
        rw [made]
        exact moved _ _ underway

theorem read_ordered (env : Platform) (parties : Parties ι) (system next : System ι) (ordered : system.Ordered parties)
    (matched : system.Matched parties) (serving : system.Serving parties) (taken : system.read env parties = some next) :
    next.Ordered parties := by
  obtain ⟨request, passed, reading, full, attempted⟩ := read_cases env parties system next taken
  have fits := matched.current request reading
  have only := serving.receiving request reading
  have passes := fits.passes
  rw [full, inPipe, if_pos (fits.own passed full), ← List.append_assoc] at passes
  obtain ⟨name, data, call⟩ : ∃ name data, request.call = .tsInPut name data := by
    have writes := fits.writes
    cases same : request.call with
    | tsInPut name data => exact ⟨name, data, rfl⟩
    | _ => simp [same, Call.putsOrGets, Call.writes] at only writes
  have sent : sendItem data.bytes = .ok (request.chunks ++ [passed.chunk] ++
      (system.sessions request.handle).unwritten request.number) := by
    have side : (parties.ts request.handle).isLocal = true := fits.here
    rw [call] at passes
    simpa only [Call.passes, side, if_true] using passes
  have emptied : ({ system with slot := none, receiving := none } : System ι).Serving parties :=
    ⟨serving.active, serving.up, (fun _ none => by cases none), serving.taken, serving.arrived⟩
  cases attempt_payload env parties _ next { request with chunks := request.chunks ++ [passed.chunk] } emptied only attempted with
  | inl here =>
      obtain ⟨handled, same, item, payload⟩ := here
      have whole : (system.sessions request.handle).unwritten request.number = [] := by
        dsimp only at payload
        rw [call, Call.payload, if_pos fits.here] at payload
        exact item_whole data _ _ item sent payload
      subst same
      refine ⟨(fun _ none => by cases none), (fun _ none => by cases none), fun j chunk later stage => ?_⟩
      have stage : (system.sessions j).stage = .passing (chunk :: later) := stage
      obtain ⟨side, underway⟩ := ordered.passing j chunk later stage
      refine ⟨side, Or.inr (underway.resolve_left fun other => ?_)⟩
      obtain ⟨here, also, mine, last⟩ := other
      cases Option.some.inj (reading.symm.trans also)
      subst mine
      have begun := fits.begun
      rw [Session.unwritten, if_pos (by omega), stage] at whole
      cases whole
  | inr here =>
      obtain ⟨same, _, _, waits⟩ := here
      subst same
      refine ⟨(fun _ none => by cases none), fun other again => ?_, fun j chunk later stage => ?_⟩
      · cases again
        intro none
        have rest := (List.append_eq_nil_iff.mp none).2
        rw [show (system.sessions request.handle).unwritten request.number = [] from rest, List.append_nil] at sent
        obtain ⟨all, sends, received⟩ := recv_send_item data.bytes data.nonempty data.bounded
        cases sends.symm.trans sent
        exact waits _ received
      · obtain ⟨side, underway⟩ := ordered.passing j chunk later stage
        refine ⟨side, underway.imp (fun other => ?_) id⟩
        obtain ⟨here, also, mine⟩ := other
        cases Option.some.inj (reading.symm.trans also)
        exact ⟨_, rfl, mine⟩

structure System.Returns (system : System ι) : Prop where
  made : ∀ heard ∈ system.heard, heard.number < (system.sessions heard.handle).made
  awaited : ∀ heard ∈ system.heard, heard.out ≠ none → ∀ call, (system.sessions heard.handle).stage = .awaiting call →
    heard.number + 1 ≠ (system.sessions heard.handle).made
  once : ∀ one ∈ system.heard, ∀ two ∈ system.heard, one.out ≠ none → two.out ≠ none → one.handle = two.handle →
    one.number = two.number → one = two

omit [DecidableEq ι] in
theorem returns_kept (system next : System ι) (returns : system.Returns) (heard : next.heard = system.heard)
    (made : ∀ i, (system.sessions i).made ≤ (next.sessions i).made)
    (stages : ∀ i call, (next.sessions i).stage = .awaiting call →
      (system.sessions i).made < (next.sessions i).made ∨
        (system.sessions i).stage = .awaiting call ∧ (next.sessions i).made = (system.sessions i).made) : next.Returns := by
  refine ⟨fun entry member => ?_, fun entry member some_ call stage => ?_, ?_⟩
  · rw [heard] at member
    exact lt_of_lt_of_le (returns.made entry member) (made entry.handle)
  · rw [heard] at member
    cases stages entry.handle call stage with
    | inl more =>
        have below := returns.made entry member
        omega
    | inr same =>
        rw [same.2]
        exact returns.awaited entry member some_ call same.1
  · rw [heard]
    exact returns.once

theorem hear_returns (parties : Parties ι) (system next : System ι) (i : ι) (returns : system.Returns) (matched : system.Matched parties)
    (taken : system.hear parties i = some next) : next.Returns := by
  obtain ⟨call, first, later, out, input, stage, _, _, same⟩ := hear_cases parties system next i taken
  have begun : (system.sessions i).made ≠ 0 := by
    intro zero
    rw [(matched.sessions i).fresh zero] at stage
    cases stage
  have made : ∀ j, (next.sessions j).made = (system.sessions j).made := by
    subst same
    exact update_holds (fun j session => session.made = (system.sessions j).made) _ i _ rfl fun j _ => rfl
  have heard : next.heard = system.heard ++ [(⟨i, (system.sessions i).made - 1, call, first.ticket, out⟩ : Heard ι)] := by
    rw [same]
    rfl
  have fresh : ∀ entry ∈ system.heard, entry.out ≠ none → entry.handle = i → entry.number ≠ (system.sessions i).made - 1 := by
    intro entry member some_ here same
    have apart := returns.awaited entry member some_ call (by rw [here]; exact stage)
    rw [here] at apart
    omega
  refine ⟨fun entry member => ?_, fun entry member some_ other awaits => ?_,
    fun one oneMember two twoMember oneSome twoSome handle number => ?_⟩
  · rw [heard] at member
    rw [made]
    cases List.mem_append.mp member with
    | inl old => exact returns.made entry old
    | inr new =>
        rw [List.mem_singleton.mp new]
        exact Nat.sub_one_lt begun
  · rw [heard] at member
    rw [made]
    by_cases here : entry.handle = i
    · -- the call that has just been answered is over
      have waits : out = none := by
        cases out with
        | none => rfl
        | some read =>
            rw [here] at awaits
            subst same
            rw [set_session_self] at awaits
            cases stage_after_returned call (system.sessions i).stage read with
            | inl between =>
                rw [show call.stageAfter (system.sessions i).stage (some read) = .awaiting other from awaits] at between
                cases between
            | inr closed => cases closed.symm.trans awaits
      cases List.mem_append.mp member with
      | inl old =>
          rw [here]
          have apart := fresh entry old some_ here
          omega
      | inr new =>
          rw [List.mem_singleton.mp new] at some_
          exact absurd waits some_
    · cases List.mem_append.mp member with
      | inl old =>
          subst same
          rw [set_session_other _ i entry.handle _ here] at awaits
          exact returns.awaited entry old some_ other awaits
      | inr new =>
          rw [List.mem_singleton.mp new] at here
          exact absurd rfl here
  · rw [heard] at oneMember twoMember
    cases List.mem_append.mp oneMember with
    | inl oneOld =>
        cases List.mem_append.mp twoMember with
        | inl twoOld => exact returns.once one oneOld two twoOld oneSome twoSome handle number
        | inr twoNew =>
            have last := List.mem_singleton.mp twoNew
            rw [last] at handle number
            exact absurd number (fresh one oneOld oneSome handle)
    | inr oneNew =>
        have last := List.mem_singleton.mp oneNew
        cases List.mem_append.mp twoMember with
        | inl twoOld =>
            rw [last] at handle number
            exact absurd number.symm (fresh two twoOld twoSome handle.symm)
        | inr twoNew => exact last.trans (List.mem_singleton.mp twoNew).symm

omit [DecidableEq ι] in
theorem attempt_sessions (env : Platform) (parties : Parties ι) (system next : System ι) (request : Receiving ι)
    (taken : system.attempt env parties request = some next) :
    next.heard = system.heard ∧
      ∀ i, (next.sessions i).made = (system.sessions i).made ∧ (next.sessions i).stage = (system.sessions i).stage := by
  cases attempt_handler env parties system next request taken with
  | inl here =>
      obtain ⟨handled, _, same⟩ := here
      subst same
      exact ⟨rfl, fun _ => ⟨rfl, rfl⟩⟩
  | inr here =>
      rw [here.2]
      exact ⟨rfl, fun _ => ⟨rfl, rfl⟩⟩

theorem step_returns (env : Platform) (parties : Parties ι) (system next : System ι) (motion : Motion ι) (returns : system.Returns)
    (matched : system.Matched parties) (taken : system.step env parties motion = some next) : next.Returns := by
  cases motion with
  | hears i => exact hear_returns parties system next i returns matched taken
  | calls i call =>
      obtain ⟨chunks, can, _, same⟩ := call_cases parties system next i call taken
      subst same
      refine returns_kept system _ returns rfl
        (update_holds (fun j session => (system.sessions j).made ≤ session.made) _ i _ (Nat.le_succ _) fun j _ => le_refl _)
        (update_holds (fun j session => ∀ call, session.stage = .awaiting call → (system.sessions j).made < session.made ∨
          (system.sessions j).stage = .awaiting call ∧ session.made = (system.sessions j).made) _ i _ (fun _ _ => Or.inl (Nat.lt_succ_self _))
          fun j _ call stage => Or.inr ⟨stage, rfl⟩)
  | writes i =>
      obtain ⟨chunk, later, _, _, same⟩ := write_cases system next i taken
      subst same
      refine returns_kept system _ returns rfl
        (update_holds (fun j session => (system.sessions j).made ≤ session.made) _ i _ (le_refl _) fun j _ => le_refl _)
        (update_holds (fun j session => ∀ call, session.stage = .awaiting call → (system.sessions j).made < session.made ∨
          (system.sessions j).stage = .awaiting call ∧ session.made = (system.sessions j).made) _ i _ (fun call stage => ?_)
          fun j _ call stage => Or.inr ⟨stage, rfl⟩)
      dsimp only at stage
      split at stage <;> cases stage
  | takes i =>
      obtain ⟨number, call, later, _, _, attempted⟩ := take_cases env parties system next i taken
      obtain ⟨heard, same⟩ := attempt_sessions env parties _ next _ attempted
      have popped : ∀ j, ((system.setSession i { system.sessions i with up := later }).sessions j).made = (system.sessions j).made ∧
          ((system.setSession i { system.sessions i with up := later }).sessions j).stage = (system.sessions j).stage :=
        update_holds (fun j session => session.made = (system.sessions j).made ∧ session.stage = (system.sessions j).stage) _ i _ ⟨rfl, rfl⟩
          fun j _ => ⟨rfl, rfl⟩
      refine returns_kept system next returns heard (fun j => le_of_eq ((same j).1.trans (popped j).1).symm)
          fun j call stage => Or.inr ⟨?_, ?_⟩
      · exact ((same j).2.trans (popped j).2).symm.trans stage
      · exact (same j).1.trans (popped j).1
  | reads =>
      obtain ⟨request, passed, _, _, attempted⟩ := read_cases env parties system next taken
      obtain ⟨heard, same⟩ := attempt_sessions env parties _ next _ attempted
      exact returns_kept system next returns heard (fun j => le_of_eq (same j).1.symm) fun j call stage =>
        Or.inr ⟨(same j).2.symm.trans stage, (same j).1⟩

-- All that a run of puts and gets keeps.
structure System.Faithful (env : Platform) (parties : Parties ι) (system : System ι) : Prop where
  inStep : system.InStep env parties
  matched : system.Matched parties
  owned : system.Owned parties
  ordered : system.Ordered parties
  serving : system.Serving parties
  returns : system.Returns

theorem step_faithful (env : Platform) (parties : Parties ι) (one : ∀ i j, parties.isLocal i = true → parties.isLocal j = true → i = j)
    (system next : System ι) (motion : Motion ι) (faithful : system.Faithful env parties) (only : motion.PutsOrGets)
    (taken : system.step env parties motion = some next) : next.Faithful env parties := by
  obtain ⟨inStep, matched, owned, ordered, serving, returns⟩ := faithful
  have turn := ordered_in_turn env parties one system next motion ordered matched taken
  have after := step_matched env parties system next motion matched turn taken
  have apart : motion.Apart parties := by
    cases motion with
    | calls i call =>
        intro fetch
        cases call with
        | tsInPut name data => cases fetch
        | tsOutQuery takesIt blocking name =>
            rw [(query_command takesIt blocking name).1] at fetch
            cases fetch
        | _ => cases only
    | takes i => trivial
    | writes i => trivial
    | reads => trivial
    | hears i => trivial
  have open_ : motion.TakenOpen parties system := by
    cases motion with
    | takes i => exact fun _ _ _ _ _ => serving.active
    | calls i call => trivial
    | writes i => trivial
    | reads => trivial
    | hears i => trivial
  refine ⟨step_in_step env parties one system next motion inStep matched owned apart open_ taken, after,
    step_owned env parties system next motion matched owned taken, ?_, step_serving env parties system next motion serving owned only taken,
    step_returns env parties system next motion returns matched taken⟩
  cases motion with
  | calls i call => exact call_ordered parties system next i call ordered taken
  | writes i => exact write_ordered parties system next i ordered turn taken
  | takes i => exact take_ordered env parties system next i ordered matched after serving taken
  | reads => exact read_ordered env parties system next ordered matched serving taken
  | hears i => exact hear_ordered parties system next i ordered taken

-- ts_out returns 0, with this name, and with this data and its len.
def TsOut.given (name : Name) (data : Payload) : TsOut := { rt := 0, name := some name.chars, anonId := none, data := some data.bytes }

theorem named_returned (env : Platform) (ts : Ts) (call : Call) (ticket : Nat) (nothing : Prop) (reply : Reply)
    (tuple : SngTuple) (name : Name)
    (data : Payload) (settles : reply.Settles nothing ts.isLocal call) (gives : reply.Gives tuple) (named : tuple.name = .str name.chars)
    (payload : tuple.data = data.bytes) (arrives : name.Arrives) :
    call.heard env ts ticket reply = .ok (some (TsOut.given name data), ⟨[], false, []⟩) := by
  have received : ∀ chars, tuple.name = .str chars →
      (p2pmRecvStr (UInt32.ofNat (chars.length + 1)) (chars ++ [0]) >>= fun name =>
        (.ok (some { rt := 0, name := some name, anonId := none, data := some tuple.data }, ⟨[], false, []⟩) :
          Except Stop (Option TsOut × Input))) = .ok (some (TsOut.given name data), ⟨[], false, []⟩) := by
    intro chars same
    rw [named] at same
    cases same
    rw [arrives, payload]
    rfl
  cases gives with
  | inl found =>
      subst found
      obtain ⟨outs, built⟩ := read_response_total env ts.isLocal ticket tuple name.chars named (payload ▸ data.nonempty)
      cases settles with
      | found tuple asked sized =>
          obtain ⟨chars, same, heard⟩ := found_heard env ts call ticket tuple outs asked sized built
          rw [Call.heard, reply_frames env ts.isLocal ticket (.found tuple) outs built,
            reply_chunks env ts.isLocal ticket (.found tuple) outs built,
            heard]
          exact received chars same
  | inr fetched =>
      subst fetched
      obtain ⟨outs, built⟩ := fetch_response_total env ts.isLocal ticket tuple name.chars named (payload ▸ data.nonempty)
      cases settles with
      | fetched tuple asked sized remote =>
          rw [Call.heard, reply_frames env ts.isLocal ticket (.fetched tuple) outs built,
            reply_chunks env ts.isLocal ticket (.fetched tuple) outs built]
          cases fetched_heard env ts call ticket tuple outs remote asked sized built with
          | inl anonymous =>
              rw [named] at anonymous
              cases anonymous.1
          | inr here =>
              obtain ⟨chars, same, heard⟩ := here
              rw [heard]
              exact received chars same

theorem hear_taken (parties : Parties ι) (system : System ι) (i : ι) (call : Call) (first : Sent) (later : List Sent) (out : Option TsOut)
    (input : Input) (stage : (system.sessions i).stage = .awaiting call) (down : (system.sessions i).down = first :: later)
    (heard : call.hear (parties.ts i) (system.due parties i) ((system.sessions i).down.map Sent.frame) = .ok (out, input)) :
    system.hear parties i = some ({ system with
      answers := if parties.isLocal i then input.chunks else system.answers
      heard := system.heard ++ [(⟨i, (system.sessions i).made - 1, call, first.ticket, out⟩ : Heard ι)] }.setSession i
        { system.sessions i with
          stage := call.stageAfter (system.sessions i).stage out
          down := (system.sessions i).down.drop ((system.sessions i).down.length - input.frames.length) }) := by
  rw [System.due] at heard
  unfold System.hear
  simp only [stage, down] at heard ⊢
  rw [heard]

-- The client has only to receive what it has been sent.
def System.Yields (env : Platform) (parties : Parties ι) (i : ι) (number : Nat) (out : TsOut) (system : System ι) : Prop :=
  ∃ rest after, (∀ motion ∈ rest, motion = Motion.hears i) ∧ Runs.run (System.step env parties) system rest = some after ∧
    ∃ heard ∈ after.heard, heard.handle = i ∧ heard.number = number ∧ heard.out = some out

theorem answered_yields (env : Platform) (parties : Parties ι) (system : System ι) (requests : List BlockingRequest) (i : ι)
    (intake : Intake ι) (ticket : Nat) (reply : Reply) (out : TsOut) (input : Input)
    (answer : Answered env parties system.taken requests i (system.sessions i) (system.due parties i) intake ticket [] reply)
    (returns : intake.call.heard env (parties.ts i) ticket reply = .ok (some out, input)) :
    system.Yields env parties i intake.number out := by
  have heard : intake.call.hear (parties.ts i) (system.due parties i) ((system.sessions i).down.map Sent.frame) = .ok (some out, input) := by
    rw [answer.due, answer.down, List.nil_append]
    exact returns
  cases down : (system.sessions i).down with
  | nil =>
      have asked : intake.call.query ≠ none ∨ ∃ mode, intake.call = .tsOpen mode := by
        cases answer.settles with
        | mode mode word opens => exact Or.inr ⟨mode, opens⟩
        | enf asked _ _ => exact Or.inl asked
        | term asked => exact Or.inl asked
        | found _ asked _ => exact Or.inl asked
        | fetched _ asked _ _ => exact Or.inl asked
      rw [down] at heard
      cases asked with
      | inl asked =>
          rw [hear_response (parties.ts i) intake.call _ _ asked] at heard
          cases heard
      | inr opens =>
          obtain ⟨mode, opens⟩ := opens
          rw [opens] at heard
          cases heard
  | cons first later =>
      have taken := hear_taken parties system i intake.call first later (some out) input answer.asked.stage down heard
      generalize shape : (System.setSession _ i _) = next at taken
      refine ⟨[.hears i], next, fun motion member => List.mem_singleton.mp member, ?_,
        ⟨i, (system.sessions i).made - 1, intake.call, first.ticket, some out⟩, ?_, rfl, answer.asked.number.symm, rfl⟩
      · simp only [Runs.run, System.step, taken]
      · rw [← shape]
        exact List.mem_append_right _ List.mem_cons_self

theorem told_yields (env : Platform) (parties : Parties ι) (system : System ι) (requests : List BlockingRequest) (i : ι)
    (intake : Intake ι) (ticket : Nat) (told : List Sent) (reply : Reply) (out : TsOut) (input : Input)
    (answer : Answered env parties system.taken requests i (system.sessions i) (system.due parties i) intake ticket told reply)
    (returns : intake.call.heard env (parties.ts i) ticket reply = .ok (some out, input)) :
    system.Yields env parties i intake.number out := by
  cases told with
  | nil => exact answered_yields env parties system requests i intake ticket reply out input answer returns
  | cons first rest =>
      obtain ⟨enf, query, blocks⟩ := answer.asked.notice.resolve_left (List.cons_ne_nil _ _)
      have waits := enf_waits env (parties.ts i) intake.call (parties.isLocal i) ticket (system.due parties i)
        ((reply.frames env (parties.isLocal i) ticket).map Sent.frame) query blocks
      rw [← enf, ← List.map_append, ← answer.down] at waits
      have down : (system.sessions i).down = first :: (rest ++ reply.frames env (parties.isLocal i) ticket) := answer.down
      have taken := hear_taken parties system i intake.call first _ none _ answer.asked.stage down waits
      generalize shape : (System.setSession _ i _) = next at taken
      have session : next.sessions i = { system.sessions i with down := reply.frames env (parties.isLocal i) ticket } := by
        rw [← shape, set_session_self, Call.stageAfter, answer.down, drop_front _ _ _ (List.length_map ..)]
      have due : next.due parties i = system.due parties i := by
        rw [← shape]
        cases side : parties.isLocal i with
        | true => simp [System.due, System.setSession, side]
        | false => simp [System.due, side]
      have same : next.taken = system.taken := by
        rw [← shape]
        rfl
      have left : Answered env parties next.taken requests i (next.sessions i) (next.due parties i) intake ticket [] reply := by
        rw [same, session, due]
        exact ⟨awaits_behind env parties system.taken i _ intake ticket _ _ answer.asked, rfl, answer.due, answer.settles, answer.alone⟩
      obtain ⟨more, after, only, ran, heard⟩ := answered_yields env parties next requests i intake ticket reply out input left returns
      refine ⟨.hears i :: more, after, fun motion member => ?_, ?_, heard⟩
      · cases List.mem_cons.mp member with
        | inl head => exact head
        | inr behind => exact only motion behind
      · rw [Runs.run, System.step, taken]
        exact ran

-- The call has returned so, and only so, or returns so with what it has been sent.
structure System.Gets (env : Platform) (parties : Parties ι) (get : Intake ι) (out : TsOut) (system : System ι) : Prop where
  only : ∀ heard ∈ system.heard, heard.handle = get.handle → heard.number = get.number → ∀ read, heard.out = some read → read = out
  yields : system.Yields env parties get.handle get.number out

theorem faithful_gets (env : Platform) (parties : Parties ι) (system : System ι)
    (faithful : system.Faithful env parties) (space : TsdElement)
    (found : system.daemon.self.spaceTable parties.spaceName.chars = some space) (ticket : Nat) (command : TupleCommand) (tuple : SngTuple)
    (answered : Event.replied ticket command tuple ∈ space.history) :
    ∃ (put get : Intake ι) (name : Name) (data : Payload), system.taken[tuple.origin]? = some put ∧ put.call = .tsInPut name data ∧
      system.taken[ticket]? = some get ∧ (∃ takesIt blocking asked, get.call = .tsOutQuery takesIt blocking asked) ∧
        system.Gets env parties get (TsOut.given name data) := by
  obtain ⟨other, orderly⟩ := faithful.inStep.space
  cases Option.some.inj (orderly.found.symm.trans found)
  obtain ⟨another, there, fine⟩ := faithful.owned.space
  cases Option.some.inj (there.symm.trans found)
  obtain ⟨put, deposited, written⟩ := fine.delivered ticket command tuple answered
  have puts := faithful.serving.taken put (List.mem_of_getElem? deposited)
  obtain ⟨name, data, call⟩ : ∃ name data, put.call = .tsInPut name data := by
    cases same : put.call with
    | tsInPut name data => exact ⟨name, data, rfl⟩
    | _ => simp [same, Call.putsOrGets, Call.written] at puts written
  have arrives := faithful.serving.arrived put (List.mem_of_getElem? deposited) name data call
  rw [call] at written
  have same : tuple = ⟨.str name.chars, 0, data.bytes, tuple.origin⟩ := (Option.some.inj written).symm
  have named : tuple.name = .str name.chars := congrArg SngTuple.name same
  have payload : tuple.data = data.bytes := congrArg SngTuple.data same
  obtain ⟨reply, gives, placed⟩ := orderly.placed ticket command tuple answered
  have asks : ∀ get : Intake ι, system.taken[ticket]? = some get →
      (∃ nothing isLocal, reply.Settles nothing isLocal get.call) →
        ∃ takesIt blocking asked, get.call = .tsOutQuery takesIt blocking asked := by
    intro get taken settles
    obtain ⟨nothing, isLocal, settles⟩ := settles
    have only := faithful.serving.taken get (List.mem_of_getElem? taken)
    have query : get.call.query ≠ none := by
      cases gives with
      | inl found =>
          subst found
          cases settles with
          | found _ asked _ => exact asked
      | inr fetched =>
          subst fetched
          cases settles with
          | fetched _ asked _ _ => exact asked
    cases same : get.call with
    | tsOutQuery takesIt blocking asked => exact ⟨takesIt, blocking, asked, rfl⟩
    | tsInPut name data =>
        rw [same] at query
        exact absurd rfl query
    | _ => simp [same, Call.putsOrGets] at only
  refine ⟨put, ?_⟩
  cases placed with
  | inl heard =>
      obtain ⟨heard, member, mine, ⟨nothing, settles⟩, read, rest, out, value⟩ := heard
      obtain ⟨get, taken, handle, number, asked, _⟩ := orderly.heard heard member
      subst mine
      cases (named_returned env (parties.ts heard.handle) heard.call heard.ticket nothing reply tuple name data settles gives named payload
        arrives).symm.trans value
      refine ⟨get, name, data, deposited, call, taken, asks get taken ⟨_, _, asked ▸ settles⟩, fun other also here same read value => ?_,
        [], system, (fun motion member => by cases member), rfl, heard, member, handle.symm, number.symm, out⟩
      have one := faithful.returns.once other also heard member (by simp [value]) (by simp [out]) (here.trans handle) (same.trans number)
      rw [one, out] at value
      exact (Option.some.inj value).symm
  | inr waits =>
      obtain ⟨i, get, told, _, answer⟩ := waits
      have value := named_returned env (parties.ts i) get.call ticket _ reply tuple name data answer.settles gives named payload arrives
      have handle := answer.asked.handle
      subst handle
      refine ⟨get, name, data, deposited, call, answer.asked.there, asks get answer.asked.there ⟨_, _, answer.settles⟩, ?_,
        told_yields env parties system _ get.handle get ticket told reply _ _ answer value⟩
      intro heard member handle number read out
      have apart := faithful.returns.awaited heard member (by simp [out]) get.call (by rw [handle]; exact answer.asked.stage)
      have made := faithful.returns.made heard member
      rw [handle] at apart made
      have last := answer.asked.number
      omega

-- Whoever is answered with a tuple gets the name and the data of the put that wrote it.
theorem gets_return_what_was_put (env : Platform) (parties : Parties ι)
    (one : ∀ i j, parties.isLocal i = true → parties.isLocal j = true → i = j) (self : Tsd) (fresh : self.Fresh parties.spaceName.chars)
    (active : ∃ space, self.spaceTable parties.spaceName.chars = some space ∧ space.isActivated = true) (motions : List (Motion ι))
    (final : System ι) (only : ∀ motion ∈ motions, motion.PutsOrGets)
    (ran : Runs.run (System.step env parties) (System.start self) motions = some final) (space : TsdElement)
    (found : final.daemon.self.spaceTable parties.spaceName.chars = some space) (ticket : Nat) (command : TupleCommand) (tuple : SngTuple)
    (answered : Event.replied ticket command tuple ∈ space.history) :
    ∃ (put get : Intake ι) (name : Name) (data : Payload), final.taken[tuple.origin]? = some put ∧ put.call = .tsInPut name data ∧
      final.taken[ticket]? = some get ∧ (∃ takesIt blocking asked, get.call = .tsOutQuery takesIt blocking asked) ∧
        final.Gets env parties get (TsOut.given name data) := by
  have started : (System.start self : System ι).Faithful env parties :=
    ⟨start_in_step env parties self fresh, start_matched parties self, start_owned parties self fresh, start_ordered parties self,
      ⟨active, (fun _ _ member => by cases member), (fun _ reading => by cases reading), (fun _ member => by cases member),
        fun _ member => by cases member⟩,
      ⟨(fun _ member => by cases member), (fun _ member => by cases member), fun _ member => by cases member⟩⟩
  have faithful := Runs.run_guarded_invariant (System.step env parties) (fun _ motion => motion.PutsOrGets)
    (fun system => system.Faithful env parties)
    (fun system motion next before allowed taken => step_faithful env parties one system next motion before allowed taken)
    (System.start self) final motions started
    (Runs.meets_of_forall (System.step env parties) _ (System.start self) motions fun motion member _ => only motion member) ran
  exact faithful_gets env parties final faithful space found ticket command tuple answered

-- One local handle, the others remote.
def sampleClients : Parties (Fin 3) where
  spaceName := sampleHandles.spaceName
  identity := sampleHandles.identity
  host := sampleHandles.host
  isLocal := fun i => i.val == 0
  distinct := fun i j _ same => sampleHandles.distinct i j rfl same

-- A remote client waits for what the local one puts.
def sampleWait : List (Motion (Fin 3)) :=
  [.calls sampleOpener (.tsOutQuery true true sampleName), .takes sampleOpener, .calls sampleCaller (.tsInPut sampleName samplePayload),
    .takes sampleCaller, .writes sampleCaller, .reads]

set_option maxRecDepth 20000 in
theorem gets_return_what_was_put_sample : ∃ final : System (Fin 3),
    Runs.run (System.step samplePlatform sampleClients) (System.start sampleTsd) sampleWait = some final ∧
      ∃ get, final.taken[0]? = some get ∧ final.Gets samplePlatform sampleClients get (TsOut.given sampleName samplePayload) := by
  obtain ⟨final, ran, space, found, answered, calls⟩ : ∃ final : System (Fin 3),
      Runs.run (System.step samplePlatform sampleClients) (System.start sampleTsd) sampleWait = some final ∧
        ∃ space, final.daemon.self.spaceTable sampleClients.spaceName.chars = some space ∧
          Event.replied 0 .tsGetBlocking ⟨.str [97], 0, [7], 1⟩ ∈ space.history ∧
          final.taken.map (fun intake => intake.call) = [.tsOutQuery true true sampleName, .tsInPut sampleName samplePayload] :=
    ⟨_, rfl, _, rfl, List.mem_append_right _ List.mem_cons_self, rfl⟩
  have one : ∀ i j, sampleClients.isLocal i = true → sampleClients.isLocal j = true → i = j := by
    intro i j first second
    exact Fin.ext ((beq_iff_eq.mp first).trans (beq_iff_eq.mp second).symm)
  have only : ∀ motion ∈ sampleWait, motion.PutsOrGets := by
    intro motion member
    simp only [sampleWait, List.mem_cons, List.not_mem_nil, or_false] at member
    rcases member with same | same | same | same | same | same <;> subst same <;> first | rfl | trivial
  obtain ⟨put, get, name, data, deposited, call, taken, _, gets⟩ := gets_return_what_was_put samplePlatform sampleClients one sampleTsd
    sample_fresh ⟨_, rfl, rfl⟩ sampleWait final only ran space found 0 .tsGetBlocking ⟨.str [97], 0, [7], 1⟩ answered
  have same : (final.taken.map fun intake => intake.call)[1]? = some put.call := by
    rw [List.getElem?_map, deposited]
    rfl
  rw [calls, call] at same
  cases same
  exact ⟨final, ran, get, taken, gets⟩

end Synergy
