import Synergy.Tokens
import Synergy.Delivery

set_option autoImplicit false

namespace Synergy

-- A token on its way. Ghost: the daemon that sent it first, and how often it has been passed on.
structure Passing (n : Nat) where
  token : GenericToken
  origin : Fin n
  hops : Nat

-- Daemons around a ring: inbox i holds what the daemon before i has sent and i has not taken, the oldest first.
-- taken, the tokens the daemons have handled, and tickets are ghost.
structure TokenRing (n : Nat) where
  daemons : Fin n → Tsd
  inbox : Fin n → List (Passing n)
  tickets : Nat
  taken : List (Fin n × Passing n)

-- A round of tsd_listen at one daemon. stray is the byte a match token's sender has not written.
inductive Move (n : Nat) where
  | hears (i : Fin n) (isLocal : Bool) (input : Input)
  | delivers (i : Fin n) (stray : UInt8)

variable {n : Nat} [NeZero n]

def passOn (inbox : Fin n → List (Passing n)) (i origin : Fin n) (hops : Nat) (sent : List Out) : Fin n → List (Passing n) :=
  Function.update inbox (i + 1) (inbox (i + 1) ++ (tokensIn sent).map fun tk => ⟨tk, origin, hops⟩)

def TokenRing.step (env : Fin n → Platform) (ring : TokenRing n) : Move n → Option (TokenRing n)
  | .hears i isLocal input =>
      match handler (env i) (ring.daemons i) isLocal ring.tickets input with
      | .error _ => none
      | .ok handled =>
          some { ring with
            daemons := Function.update ring.daemons i handled.self
            inbox := passOn ring.inbox i i 1 handled.sent
            tickets := ring.tickets + 1 }
  | .delivers i stray =>
      match ring.inbox i with
      | [] => none
      | passing :: later =>
          match tokenHandler (env i) stray (ring.daemons i) passing.token with
          | .error _ => none
          | .ok (self, sent) =>
              some { ring with
                daemons := Function.update ring.daemons i self
                inbox := passOn (Function.update ring.inbox i later) i passing.origin (passing.hops + 1) sent
                taken := ring.taken ++ [(i, passing)] }

def TokenRing.space (ring : TokenRing n) (spaceName : Bytes) (i : Fin n) : Option TsdElement :=
  (ring.daemons i).spaceTable spaceName

def TokenRing.Holds (ring : TokenRing n) (spaceName : Bytes) (i : Fin n) : Prop := (ring.space spaceName i).isSome

def TokenRing.active (ring : TokenRing n) (spaceName : Bytes) (i : Fin n) : Bool :=
  match ring.space spaceName i with
  | some element => element.isActivated
  | none => false

-- What a token tells the daemons about a space: that it is open, that it is closed, or nothing.
def GenericToken.signal (spaceName : Bytes) (tk : GenericToken) : Option Bool :=
  match blockString tk.buf1 with
  | .error _ => none
  | .ok named =>
      if named ≠ spaceName then none
      else if tk.id = 0 then some true
      else if tk.id = 1 then some false
      else none

def tellings (spaceName : Bytes) (link : List (Passing n)) : List (Passing n) :=
  link.filter fun passing => (passing.token.signal spaceName).isSome

def TokenRing.told (ring : TokenRing n) (spaceName : Bytes) (i : Fin n) : List (Passing n) := tellings spaceName (ring.inbox i)

def TokenRing.Quiet (ring : TokenRing n) (spaceName : Bytes) : Prop := ∀ i, ring.told spaceName i = []

theorem signal_space (spaceName : Bytes) (tk : GenericToken) (told : Bool) (signal : tk.signal spaceName = some told) :
    blockString tk.buf1 = .ok spaceName ∧ tk.id = if told then 0 else 1 := by
  unfold GenericToken.signal at signal
  split at signal
  · cases signal
  · rename_i named found
    split at signal
    · cases signal
    · rename_i here
      rw [found, not_not.mp here]
      split at signal
      · cases signal
        exact ⟨rfl, by assumption⟩
      · split at signal
        · cases signal
          exact ⟨rfl, by assumption⟩
        · cases signal

theorem signal_of_space (spaceName : Bytes) (tk : GenericToken) (named : blockString tk.buf1 = .ok spaceName) :
    tk.signal spaceName = if tk.id = 0 then some true else if tk.id = 1 then some false else none := by
  simp only [GenericToken.signal, named, ne_eq, not_true_eq_false, if_false]

-- All that a daemon can do with a token: what it is afterwards and which tokens it sends on.
inductive Taken (self : Tsd) (tk : GenericToken) : Tsd → List GenericToken → Prop where
  | unknown (spaceName : Bytes) (id : tk.id = 0) (named : blockString tk.buf1 = .ok spaceName)
      (missing : self.spaceTable spaceName = none) : Taken self tk self (tokensIn (relay tk))
  | duplicate (spaceName : Bytes) (element : TsdElement) (id : tk.id = 0) (named : blockString tk.buf1 = .ok spaceName)
      (there : self.spaceTable spaceName = some element) (active : element.isActivated = true) : Taken self tk self []
  | activates (spaceName : Bytes) (element : TsdElement) (waiting : List BlockingRequest) (id : tk.id = 0)
      (named : blockString tk.buf1 = .ok spaceName) (there : self.spaceTable spaceName = some element)
      (inactive : element.isActivated = false) (room : tk.len2 ≤ tk.buf2.length ∧ tk.len2 ≤ element.directEndpoint.length)
      (left : waiting ⊆ element.connectRequests) :
      Taken self tk
        { self with
          spaceTable := Function.update self.spaceTable spaceName (some { element with
            directEndpoint := tk.buf2.take tk.len2 ++ element.directEndpoint.drop tk.len2
            isActivated := true
            connectRequests := waiting }) }
        (tokensIn (relay tk))
  | dropped (spaceName : Bytes) (id : tk.id = 1) (named : blockString tk.buf1 = .ok spaceName)
      (missing : self.spaceTable spaceName = none) : Taken self tk self []
  | decomissions (spaceName : Bytes) (element : TsdElement) (id : tk.id = 1) (named : blockString tk.buf1 = .ok spaceName)
      (there : self.spaceTable spaceName = some element) :
      Taken self tk
        { self with spaceTable := Function.update self.spaceTable spaceName (some { element with isActivated := false }) }
        (if tk.ttl > 0 ∨ (tk.ttl = -1 ∧ element.isActivated = true) then [tk] else [])
  | matched (id : tk.id = 2) : Taken self tk self (tokensIn (relay tk))
  | other (id : tk.id ≠ 0 ∧ tk.id ≠ 1 ∧ tk.id ≠ 2 ∧ tk.id ≠ 3) : Taken self tk self []

theorem connect_token_taken (env : Platform) (self next : Tsd) (tk : GenericToken) (sent : List Out) (id : tk.id = 0)
    (done : connectTokenNext env self tk = .ok (next, sent)) : Taken self tk next (tokensIn sent) := by
  obtain ⟨name, named, done⟩ := bind_ok _ _ _ done
  cases there : self.spaceTable name with
  | none =>
      simp only [there] at done
      cases done
      exact Taken.unknown name id named there
  | some element =>
      simp only [there] at done
      cases active : element.isActivated with
      | true =>
          rw [if_pos active] at done
          cases done
          exact Taken.duplicate name element id named there active
      | false =>
          rw [if_neg (by simp [active])] at done
          split at done
          · cases done
          · rename_i room
            obtain ⟨answers, told, done⟩ := bind_ok _ _ _ done
            cases done
            rw [tokens_in_append, flatten_tokens _ (send_endpoint_tokens env _) _ _ told, List.nil_append]
            by_cases asked : element.isRequested = true
            · rw [if_pos asked]
              exact Taken.activates name element [] id named there active (by omega) (List.nil_subset _)
            · rw [if_neg asked]
              exact Taken.activates name element element.connectRequests id named there active (by omega) (List.Subset.refl _)

theorem term_token_taken (self next : Tsd) (tk : GenericToken) (sent : List Out) (id : tk.id = 1)
    (done : termTokenNext self tk = .ok (next, sent)) : Taken self tk next (tokensIn sent) := by
  obtain ⟨name, named, done⟩ := bind_ok _ _ _ done
  cases there : self.spaceTable name with
  | none =>
      simp only [there] at done
      cases done
      exact Taken.dropped name id named there
  | some element =>
      simp only [there] at done
      cases done
      have sent : tokensIn (if tk.ttl > 0 ∨ (tk.ttl = -1 ∧ element.isActivated = true) then [Out.token tk] else []) =
          if tk.ttl > 0 ∨ (tk.ttl = -1 ∧ element.isActivated = true) then [tk] else [] := by
        split <;> rfl
      rw [sent]
      exact Taken.decomissions name element id named there

theorem token_handler_taken (env : Platform) (stray : UInt8) (self next : Tsd) (tk : GenericToken) (sent : List Out)
    (done : tokenHandler env stray self tk = .ok (next, sent)) : Taken self tk next (tokensIn sent) := by
  unfold tokenHandler at done
  by_cases connects : tk.id = 0
  · rw [if_pos connects] at done
    exact connect_token_taken env self next tk sent connects done
  · by_cases terminates : tk.id = 1
    · rw [if_neg connects, if_pos terminates] at done
      exact term_token_taken self next tk sent terminates done
    · by_cases announces : tk.id = 2
      · rw [if_neg connects, if_neg terminates, if_pos announces] at done
        obtain ⟨same, passed⟩ := match_token_relays env stray self next tk sent done
        subst same
        rw [passed]
        exact Taken.matched announces
      · rw [if_neg connects, if_neg terminates, if_neg announces] at done
        by_cases replicates : tk.id = 3
        · rw [if_pos replicates] at done
          cases done
        · have nothing : next = self ∧ sent = [] := by
            rw [if_neg replicates] at done
            split at done <;> cases done <;> exact ⟨rfl, rfl⟩
          rw [nothing.1, nothing.2]
          exact Taken.other ⟨connects, terminates, announces, replicates⟩

theorem block_string_terminated (chars : Bytes) (rest : List (Option UInt8)) (clean : NulFree chars) :
    blockString ((chars ++ [0]).map some ++ rest) = .ok chars := by
  induction chars with
  | nil => rfl
  | cons c later ih =>
      have notNul : ¬ c = 0 := fun zero => clean (by simp [zero])
      have cleanLater : NulFree later := fun member => clean (List.mem_cons_of_mem _ member)
      simp only [List.cons_append, List.map_cons, blockString, notNul, if_false, ih cleanLater, bind, Except.bind, pure, Except.pure]

def activationToken (endpoint spaceName : Bytes) : GenericToken :=
  { id := 0, ttl := -1, buf1 := (spaceName ++ [0]).map some, buf2 := endpoint ++ [0], len1 := spaceName.length + 1,
    len2 := endpoint.length + 1 }

def decomissionToken (endpoint spaceName : Bytes) : GenericToken := { activationToken endpoint spaceName with id := 1 }

theorem activation_named (endpoint spaceName : Bytes) (clean : NulFree spaceName) :
    blockString (activationToken endpoint spaceName).buf1 = .ok spaceName := by
  have string := block_string_terminated spaceName [] clean
  rwa [List.append_nil] at string

-- A TsConnect that a daemon takes for the opening of its space.
def TsdElement.opens (space : TsdElement) (mode : UInt32) : Bool :=
  space.tsMode = .master ∧ (mode = tsModeMaster ∨ mode = tsModeClient)

def StringClients (requests : List BlockingRequest) : Prop := ∀ request ∈ requests, ∃ clientid, request.clientid = .str clientid

structure Connected (daemon : Tsd) (mode : UInt32) (before after : TsdElement) (tokens : List GenericToken) : Prop where
  name : after.name = before.name
  tsMode : after.tsMode = before.tsMode
  active : after.isActivated = (before.isActivated || before.opens mode)
  sent : tokens = if before.opens mode = true ∧ before.isActivated = false then [activationToken daemon.endpoint before.name] else []
  direct : before.tsMode ≠ .master → after.directEndpoint = before.directEndpoint
  room : after.directEndpoint.length = before.directEndpoint.length
  clients : StringClients before.connectRequests → StringClients after.connectRequests

theorem copy_endpoint_length (direct endpoint copied : Bytes) (done : copyEndpoint direct endpoint = .ok copied) :
    copied.length = direct.length := by
  unfold copyEndpoint at done
  split at done
  · cases done
    rw [List.length_append, List.length_cons, List.length_drop]
    omega
  · cases done

theorem activate_tokens (self : Tsd) (space : TsdElement) :
    tokensIn (sendActivateSignal self space).2 = if space.isActivated = false then [activationToken self.endpoint space.name] else [] := by
  unfold sendActivateSignal
  cases space.isActivated <;> rfl

theorem unopened_connected (self : Tsd) (mode : UInt32) (before after : TsdElement) (tokens : List GenericToken)
    (closed : before.opens mode = false) (silent : tokens = []) (name : after.name = before.name) (tsMode : after.tsMode = before.tsMode)
    (active : after.isActivated = before.isActivated) (direct : after.directEndpoint = before.directEndpoint)
    (clients : StringClients before.connectRequests → StringClients after.connectRequests) :
    Connected self mode before after tokens where
  name := name
  tsMode := tsMode
  active := by rw [active, closed, Bool.or_false]
  sent := by rw [silent, closed, if_neg (by simp)]
  direct := fun _ => direct
  room := by rw [direct]
  clients := clients

theorem connect_mode_connected (env : Platform) (self : Tsd) (args : HandlerArg) (space : TsdElement) (mode : UInt32)
    (acted : Acted) (clientid : Bytes) (client : args.clientid = .str clientid)
    (done : connectMode env self args space mode = .ok acted) :
    Connected self mode space acted.space (tokensIn acted.sent) := by
  obtain ⟨out, identity, done⟩ := bind_ok _ _ _ done
  have silent := send_clientid_tokens _ _ _ _ identity
  have told : ∀ word, tokensIn [out, sendUint32 env args.isLocal args.ticket word false] = [] := fun _ => by
    rw [silent]
    rfl
  have asked : tokensIn (out :: (sendActivateSignal self { space with isRequested := true }).2 ++
      [sendUint32 env args.isLocal args.ticket tsModeMaster false]) =
        if space.isActivated = false then [activationToken self.endpoint space.name] else [] := by
    rw [List.cons_append, silent, tokens_in_append, activate_tokens, tokens_in_uint32, tokens_in_nil, List.append_nil]
  obtain ⟨same, _⟩ := activate_signal self { space with isRequested := true }
  dsimp only at done
  split at done
  · rename_i tsMode
    by_cases master : mode = tsModeMaster
    · rw [if_pos master] at done
      obtain ⟨direct, copied, done⟩ := bind_ok _ _ _ done
      cases done
      have opens : space.opens mode = true := by simp [TsdElement.opens, tsMode, master]
      refine ⟨?_, ?_, ?_, ?_, fun worker => absurd tsMode worker, copy_endpoint_length _ _ _ copied, ?_⟩
      · rw [same]
      · rw [same]
      · rw [opens, Bool.or_true]
      · rw [asked, opens]
        simp only [true_and]
      · rw [same]
        exact id
    · rw [if_neg master] at done
      by_cases client : mode = tsModeClient
      · rw [if_pos client] at done
        cases done
        have opens : space.opens mode = true := by simp [TsdElement.opens, tsMode, client]
        refine ⟨?_, ?_, ?_, ?_, fun worker => absurd tsMode worker, ?_, ?_⟩
        · rw [same]
        · rw [same]
        · rw [opens, Bool.or_true]
        · rw [asked, opens]
          simp only [true_and]
        · rw [same]
        · rw [same]
          exact id
      · rw [if_neg client] at done
        cases done
        have closed : space.opens mode = false := by simp [TsdElement.opens, master, client]
        exact unopened_connected self mode space _ _ closed (told _) rfl rfl rfl rfl id
  · rename_i tsMode
    have closed : space.opens mode = false := by simp [TsdElement.opens, tsMode]
    split at done
    · cases done
      exact unopened_connected self mode space _ _ closed (told _) rfl rfl rfl rfl id
    · split at done
      · obtain ⟨direct, _, done⟩ := bind_ok _ _ _ done
        obtain ⟨endpoint, named, done⟩ := bind_ok _ _ _ done
        cases done
        refine unopened_connected self mode space _ _ closed ?_ rfl rfl rfl rfl id
        rw [silent, tokens_in_uint32, send_str_tokens _ _ _ _ _ _ named]
      · cases done
        refine unopened_connected self mode space _ _ closed (told _) rfl rfl rfl rfl fun strings request member => ?_
        rcases List.mem_append.mp member with old | new
        · exact strings request old
        · rw [List.mem_singleton.mp new]
          exact ⟨clientid, client⟩
  · rename_i tsMode
    have closed : space.opens mode = false := by simp [TsdElement.opens, tsMode]
    split at done
    · cases done
      exact unopened_connected self mode space _ _ closed (told _) rfl rfl rfl rfl id
    · cases done
      exact unopened_connected self mode space _ _ closed (told _) rfl rfl rfl rfl id

theorem send_term_tokens (env : Platform) (request : BlockingRequest) (outs : List Out)
    (sent : sendTerm env request = .ok outs) : tokensIn outs = [] := by
  obtain ⟨clientid, identity, sent⟩ := bind_ok _ _ _ sent
  cases sent
  rw [send_clientid_tokens _ _ _ _ identity]
  rfl

theorem term_space_closed (env : Platform) (self : Tsd) (space : TsdElement) (acted : Acted)
    (done : termSpace env self space = .ok acted) :
    acted.space.name = space.name ∧ acted.space.tsMode = space.tsMode ∧ acted.space.isActivated = false ∧
      acted.space.directEndpoint = space.directEndpoint ∧
      tokensIn acted.sent = if space.isActivated = true then [decomissionToken self.endpoint space.name] else [] := by
  have left : (sendDecomissionSignal self space).1.name = space.name ∧ (sendDecomissionSignal self space).1.tsMode = space.tsMode ∧
      (sendDecomissionSignal self space).1.directEndpoint = space.directEndpoint := by
    unfold sendDecomissionSignal
    split <;> exact ⟨rfl, rfl, rfl⟩
  have signal : tokensIn (sendDecomissionSignal self space).2 =
      if space.isActivated = true then [decomissionToken self.endpoint space.name] else [] := by
    unfold sendDecomissionSignal
    split <;> rfl
  obtain ⟨⟨cleared, sent⟩, requests, done⟩ := bind_ok _ _ _ done
  obtain ⟨named, namedSent, requests⟩ := bind_ok _ _ _ requests
  obtain ⟨bcast, bcastSent, requests⟩ := bind_ok _ _ _ requests
  split at requests
  · cases requests
  · cases requests
    cases done
    refine ⟨left.1, left.2.1, rfl, left.2.2, ?_⟩
    rw [tokens_in_append, tokens_in_append, flatten_tokens _ (send_term_tokens env) _ _ namedSent,
      flatten_tokens _ (send_term_tokens env) _ _ bcastSent, List.append_nil, List.append_nil]
    exact signal

def Tsd.Named (self : Tsd) : Prop := ∀ spaceName element, self.spaceTable spaceName = some element → element.name = spaceName

theorem created_named (endpoint : Bytes) (replicationFactor : UInt32) (spaces : List SngNamespace) :
    (tsdCreate endpoint replicationFactor spaces).Named := by
  intro spaceName element found
  obtain ⟨config, _, named, same⟩ := created_space endpoint replicationFactor spaces spaceName element found
  rw [same]
  exact named

theorem update_named (self : Tsd) (spaceName : Bytes) (element : TsdElement) (named : self.Named) (same : element.name = spaceName) :
    ({ self with spaceTable := Function.update self.spaceTable spaceName (some element) } : Tsd).Named := by
  intro other left found
  exact update_each self.spaceTable spaceName element (fun name space => space.name = name) named same other left found

theorem tells_iff (spaceName : Bytes) (tk : GenericToken) :
    (tk.signal spaceName).isSome = true ↔ blockString tk.buf1 = .ok spaceName ∧ (tk.id = 0 ∨ tk.id = 1) := by
  constructor
  · intro tells
    obtain ⟨told, signal⟩ := Option.isSome_iff_exists.mp tells
    obtain ⟨named, id⟩ := signal_space spaceName tk told signal
    cases told with
    | true => exact ⟨named, Or.inl id⟩
    | false => exact ⟨named, Or.inr id⟩
  · rintro ⟨named, opens | closes⟩
    · rw [signal_of_space spaceName tk named, if_pos opens]
      rfl
    · rw [signal_of_space spaceName tk named, if_neg (by rw [closes]; decide), if_pos closes]
      rfl

def tellsOf (spaceName : Bytes) (tokens : List GenericToken) : List GenericToken :=
  tokens.filter fun tk => (tk.signal spaceName).isSome

-- What a TsConnect or TsTerm does to a space and tells the ring of it.
inductive Requested (self : Tsd) (spaceName : Bytes) (arrival : Arrival) : Option TsdElement → Option TsdElement →
    List GenericToken → Prop where
  | untouched (space : Option TsdElement) (elsewhere : arrival.ts.tsname.chars = spaceName →
      ∀ element, space = some element → arrival.call = .tsClose ∧ element.isActivated = false) :
      Requested self spaceName arrival space space []
  | connected (mode : UInt32) (before after : TsdElement) (tokens : List GenericToken) (here : arrival.ts.tsname.chars = spaceName)
      (asked : arrival.call = .tsOpen mode) (effect : Connected self mode before after tokens) :
      Requested self spaceName arrival (some before) (some after) tokens
  | closed (before after : TsdElement) (here : arrival.ts.tsname.chars = spaceName) (asked : arrival.call = .tsClose)
      (open_ : before.isActivated = true) (name : after.name = before.name) (tsMode : after.tsMode = before.tsMode)
      (shut : after.isActivated = false) (direct : after.directEndpoint = before.directEndpoint) :
      Requested self spaceName arrival (some before) (some after) [decomissionToken self.endpoint before.name]

def Call.signals : Call → Prop
  | .tsOpen _ => True
  | .tsClose => True
  | _ => False

theorem call_requested (env : Platform) (self : Tsd) (arrival : Arrival) (ticket : Nat) (handled : Handled) (spaceName : Bytes)
    (named : self.Named) (signals : arrival.call.signals)
    (done : handler env self arrival.ts.isLocal ticket arrival.input = .ok handled) :
    handled.self.endpoint = self.endpoint ∧ handled.self.Named ∧
      Requested self spaceName arrival (self.spaceTable spaceName) (handled.self.spaceTable spaceName)
        (tellsOf spaceName (tokensIn handled.sent)) := by
  have served : Served env self arrival.ts arrival.client ticket arrival.call [] arrival.chunks handled := by
    apply handler_call env self arrival.ts arrival.client ticket arrival.call [] false arrival.chunks handled
    simpa only [Arrival.input, List.append_nil] using done
  cases served with
  | refused closed =>
      refine ⟨rfl, named, Requested.untouched _ fun here element found => ?_⟩
      obtain ⟨other, inactive⟩ := closed element (here ▸ found)
      refine ⟨?_, inactive⟩
      cases call : arrival.call with
      | tsOpen mode =>
          rw [call] at other
          exact absurd rfl other
      | tsClose => rfl
      | _ =>
          rw [call] at signals
          cases signals
  | acted space bytes rest acted found active payload performed =>
      have name := named _ _ found
      -- the call keeps the name, and what it tells the ring is about that name
      suffices effect : acted.space.name = space.name ∧ ∃ tokens, tokensIn acted.sent = tokens ∧
          (∀ tk ∈ tokens, blockString tk.buf1 = .ok space.name ∧ (tk.id = 0 ∨ tk.id = 1)) ∧
          (arrival.ts.tsname.chars = spaceName → Requested self spaceName arrival (some space) (some acted.space) tokens) from by
        obtain ⟨sameName, tokens, sent, about, asked⟩ := effect
        refine ⟨rfl, update_named self _ acted.space named (sameName.trans name), ?_⟩
        rw [sent]
        by_cases here : arrival.ts.tsname.chars = spaceName
        · have all : tellsOf spaceName tokens = tokens := by
            refine List.filter_eq_self.mpr fun tk member => ?_
            obtain ⟨string, kind⟩ := about tk member
            exact (tells_iff spaceName tk).mpr ⟨(name.trans here) ▸ string, kind⟩
          subst here
          dsimp only
          rw [all, Function.update_self, found]
          exact asked rfl
        · have none_ : tellsOf spaceName tokens = [] := by
            refine List.filter_eq_nil_iff.mpr fun tk member tells => ?_
            have string := ((tells_iff spaceName tk).mp tells).1
            rw [(about tk member).1] at string
            exact here (name.symm.trans (Except.ok.inj string))
          dsimp only
          rw [none_, Function.update_of_ne (Ne.symm here)]
          exact Requested.untouched _ fun same => absurd same here
      have clean : NulFree space.name := name ▸ arrival.ts.tsname.clean
      cases call : arrival.call with
      | tsOpen mode =>
          rw [call] at performed
          have effect := connect_mode_connected env self _ space mode acted arrival.client.chars rfl performed
          refine ⟨effect.name, _, rfl, ?_, fun here => Requested.connected mode space acted.space _ here call effect⟩
          rw [effect.sent]
          split
          · intro tk member
            rw [List.mem_singleton.mp member]
            exact ⟨activation_named self.endpoint space.name clean, Or.inl rfl⟩
          · simp
      | tsClose =>
          rw [call] at performed active
          have open_ : space.isActivated = true := by
            rcases active with connect | running
            · cases connect
            · exact running
          obtain ⟨sameName, mode, shut, direct, sent⟩ := term_space_closed env self space acted performed
          rw [if_pos open_] at sent
          refine ⟨sameName, _, sent, ?_, fun here => Requested.closed space acted.space here call open_ sameName mode shut direct⟩
          intro tk member
          rw [List.mem_singleton.mp member]
          exact ⟨activation_named self.endpoint space.name clean, Or.inr rfl⟩
      | _ =>
          rw [call] at signals
          cases signals

theorem pass_on_tellings (spaceName : Bytes) (inbox : Fin n → List (Passing n)) (i origin : Fin n) (hops : Nat) (sent : List Out)
    (j : Fin n) : tellings spaceName (passOn inbox i origin hops sent j) = tellings spaceName (inbox j) ++
      if j = i + 1 then (tellsOf spaceName (tokensIn sent)).map fun tk => ⟨tk, origin, hops⟩ else [] := by
  by_cases next : j = i + 1
  · subst next
    rw [if_pos rfl, passOn, Function.update_self, tellings, List.filter_append, List.filter_map]
    rfl
  · rw [if_neg next, passOn, Function.update_of_ne next, List.append_nil]

def TokenRing.Named (ring : TokenRing n) : Prop := ∀ i, (ring.daemons i).Named

-- What one move leaves as it was: the other daemons, the endpoints and that spaces are found by their names.
structure TokenRing.Frame (ring next : TokenRing n) (i : Fin n) : Prop where
  others : ∀ j, j ≠ i → next.daemons j = ring.daemons j
  endpoints : ∀ j, (next.daemons j).endpoint = (ring.daemons j).endpoint
  named : ring.Named → next.Named

omit [NeZero n] in
theorem update_frame (ring next : TokenRing n) (i : Fin n) (self : Tsd) (same : next.daemons = Function.update ring.daemons i self)
    (endpoint : self.endpoint = (ring.daemons i).endpoint) (named : (ring.daemons i).Named → self.Named) : ring.Frame next i := by
  have others : ∀ j, j ≠ i → next.daemons j = ring.daemons j := fun j other => by rw [same, Function.update_of_ne other]
  have here : next.daemons i = self := by rw [same, Function.update_self]
  refine ⟨others, fun j => ?_, fun all j => ?_⟩
  · by_cases at_ : j = i
    · rw [at_, here, endpoint]
    · rw [others j at_]
  · by_cases at_ : j = i
    · rw [at_, here]
      exact named (all i)
    · rw [others j at_]
      exact all j

def Arrival.move (arrival : Arrival) (i : Fin n) : Move n := .hears i arrival.ts.isLocal arrival.input

theorem hears_request (env : Fin n → Platform) (ring next : TokenRing n) (i : Fin n) (arrival : Arrival) (spaceName : Bytes)
    (named : ring.Named) (signals : arrival.call.signals) (moved : ring.step env (arrival.move i) = some next) :
    ring.Frame next i ∧ next.taken = ring.taken ∧ ∃ tokens,
      Requested (ring.daemons i) spaceName arrival (ring.space spaceName i) (next.space spaceName i) tokens ∧
      ∀ j, next.told spaceName j = ring.told spaceName j ++ if j = i + 1 then tokens.map fun tk => ⟨tk, i, 1⟩ else [] := by
  unfold TokenRing.step Arrival.move at moved
  dsimp only at moved
  split at moved
  · cases moved
  · rename_i handled done
    cases moved
    obtain ⟨endpoint, stillNamed, requested⟩ :=
      call_requested (env i) (ring.daemons i) arrival ring.tickets handled spaceName (named i) signals done
    refine ⟨update_frame ring _ i handled.self rfl endpoint fun _ => stillNamed, rfl, _, ?_,
      fun j => pass_on_tellings spaceName ring.inbox i i 1 handled.sent j⟩
    simp only [TokenRing.space, Function.update_self]
    exact requested

theorem taken_named (self next : Tsd) (tk : GenericToken) (tokens : List GenericToken) (took : Taken self tk next tokens)
    (named : self.Named) : next.endpoint = self.endpoint ∧ next.Named := by
  cases took with
  | activates spaceName element waiting id string there inactive room left =>
      exact ⟨rfl, update_named self spaceName _ named (named spaceName element there)⟩
  | decomissions spaceName element id string there =>
      exact ⟨rfl, update_named self spaceName _ named (named spaceName element there)⟩
  | _ => exact ⟨rfl, named⟩

theorem delivers_token (env : Fin n → Platform) (ring next : TokenRing n) (i : Fin n) (stray : UInt8)
    (named : ring.Named) (moved : ring.step env (.delivers i stray) = some next) :
    ∃ passing later tokens, ring.inbox i = passing :: later ∧ ring.Frame next i ∧ next.taken = ring.taken ++ [(i, passing)] ∧
      Taken (ring.daemons i) passing.token (next.daemons i) tokens ∧
      ∀ spaceName j, next.told spaceName j = (if j = i then tellings spaceName later else ring.told spaceName j) ++
        if j = i + 1 then (tellsOf spaceName tokens).map fun tk => ⟨tk, passing.origin, passing.hops + 1⟩ else [] := by
  unfold TokenRing.step at moved
  dsimp only at moved
  split at moved
  · cases moved
  · rename_i passing later waiting
    split at moved
    · cases moved
    · rename_i self sent done
      cases moved
      have took := token_handler_taken (env i) stray (ring.daemons i) self passing.token sent done
      obtain ⟨endpoint, stillNamed⟩ := taken_named _ _ _ _ took (named i)
      refine ⟨passing, later, tokensIn sent, waiting, update_frame ring _ i self rfl endpoint fun _ => stillNamed, rfl, ?_,
        fun spaceName j => ?_⟩
      · simp only [Function.update_self]
        exact took
      · have passed := pass_on_tellings spaceName (Function.update ring.inbox i later) i passing.origin (passing.hops + 1) sent j
        rw [TokenRing.told, passed]
        by_cases here : j = i
        · subst here
          rw [Function.update_self, if_pos rfl]
        · rw [Function.update_of_ne here, if_neg here]
          rfl

theorem silent_taken (self next : Tsd) (tk : GenericToken) (tokens : List GenericToken) (spaceName : Bytes)
    (took : Taken self tk next tokens) (silent : tk.signal spaceName = none) :
    next.spaceTable spaceName = self.spaceTable spaceName ∧ tellsOf spaceName tokens = [] := by
  have unheard : tellsOf spaceName [tk] = [] := by
    refine List.filter_eq_nil_iff.mpr fun other member => ?_
    rw [List.mem_singleton.mp member, silent]
    simp
  have relayed : tellsOf spaceName (tokensIn (relay tk)) = [] := by
    rw [relay_tokens]
    split
    · exact unheard
    · rfl
  have elsewhere : ∀ named, blockString tk.buf1 = .ok named → tk.id = 0 ∨ tk.id = 1 → spaceName ≠ named := by
    intro named string kind same
    have tells := (tells_iff spaceName tk).mpr ⟨same ▸ string, kind⟩
    rw [silent] at tells
    cases tells
  cases took with
  | unknown named id string missing => exact ⟨rfl, relayed⟩
  | duplicate named element id string there active => exact ⟨rfl, rfl⟩
  | activates named element waiting id string there inactive room left =>
      exact ⟨Function.update_of_ne (elsewhere named string (Or.inl id)) _ _, relayed⟩
  | dropped named id string missing => exact ⟨rfl, rfl⟩
  | decomissions named element id string there =>
      refine ⟨Function.update_of_ne (elsewhere named string (Or.inr id)) _ _, ?_⟩
      split
      · exact unheard
      · rfl
  | matched id => exact ⟨rfl, relayed⟩
  | other id => exact ⟨rfl, rfl⟩

-- What a token with ttl -1 that opens or closes a space does to it at a daemon, and whether the daemon sends it on.
inductive Told (tk : GenericToken) (opens : Bool) : Option TsdElement → Option TsdElement → List GenericToken → Prop where
  | missing : Told tk opens none none (if opens then [tk] else [])
  | known (element : TsdElement) (already : element.isActivated = opens) : Told tk opens (some element) (some element) []
  | turned (before after : TsdElement) (turned : before.isActivated = !opens) (active : after.isActivated = opens)
      (tsMode : after.tsMode = before.tsMode)
      (direct : opens = true → tk.len2 ≤ tk.buf2.length ∧
        after.directEndpoint = tk.buf2.take tk.len2 ++ before.directEndpoint.drop tk.len2) :
      Told tk opens (some before) (some after) [tk]

theorem told_taken (self next : Tsd) (tk : GenericToken) (tokens : List GenericToken) (spaceName : Bytes) (opens : Bool)
    (took : Taken self tk next tokens) (tells : tk.signal spaceName = some opens) (once : tk.ttl = -1) :
    Told tk opens (self.spaceTable spaceName) (next.spaceTable spaceName) tokens := by
  obtain ⟨string, kind⟩ := signal_space spaceName tk opens tells
  have relayed : tokensIn (relay tk) = [tk] := by rw [relay_tokens, once, if_pos (Or.inr rfl)]
  have here : ∀ named, blockString tk.buf1 = .ok named → spaceName = named := fun named same =>
    Except.ok.inj (string.symm.trans same)
  cases took with
  | unknown named id same missing =>
      rw [← here named same] at missing
      cases opens with
      | true =>
          rw [missing, relayed]
          exact Told.missing
      | false =>
          rw [id] at kind
          cases kind
  | duplicate named element id same there active =>
      rw [← here named same] at there
      cases opens with
      | true =>
          rw [there]
          exact Told.known element active
      | false =>
          rw [id] at kind
          cases kind
  | activates named element waiting id same there inactive room left =>
      cases opens with
      | true =>
          rw [← here named same] at there ⊢
          dsimp only
          rw [Function.update_self, there, relayed]
          exact Told.turned element _ inactive rfl rfl fun _ => ⟨room.1, rfl⟩
      | false =>
          rw [id] at kind
          cases kind
  | dropped named id same missing =>
      rw [← here named same] at missing
      cases opens with
      | true =>
          rw [id] at kind
          cases kind
      | false =>
          rw [missing]
          exact Told.missing
  | decomissions named element id same there =>
      cases opens with
      | true =>
          rw [id] at kind
          cases kind
      | false =>
          rw [← here named same] at there ⊢
          dsimp only
          rw [Function.update_self, there, once]
          cases active : element.isActivated with
          | true => exact Told.turned element _ active rfl rfl fun closes => by cases closes
          | false =>
              have unchanged : ({ element with isActivated := false } : TsdElement) = element := by rw [← active]
              rw [unchanged, if_neg (by simp)]
              exact Told.known element active
  | matched id =>
      rw [id] at kind
      cases opens <;> cases kind
  | other id =>
      cases opens with
      | true => exact absurd kind id.1
      | false => exact absurd kind id.2.1

theorem taken_relays (self next : Tsd) (tk : GenericToken) (tokens : List GenericToken) (took : Taken self tk next tokens) :
    tokens ⊆ [tk] := by
  have relayed : tokensIn (relay tk) ⊆ [tk] := by
    rw [relay_tokens]
    split
    · exact List.Subset.refl _
    · exact List.nil_subset _
  cases took with
  | unknown => exact relayed
  | activates => exact relayed
  | matched => exact relayed
  | decomissions =>
      split
      · exact List.Subset.refl _
      · exact List.nil_subset _
  | _ => exact List.nil_subset _

-- The moves of a run in which the daemons get these requests from clients and nothing else.
inductive Move.Calls (allowed : Fin n → Arrival → Prop) : Move n → Prop where
  | asks (i : Fin n) (arrival : Arrival) (permitted : allowed i arrival) : Move.Calls allowed (arrival.move i)
  | delivers (i : Fin n) (stray : UInt8) : Move.Calls allowed (.delivers i stray)

def TokenRing.start (endpoint : Fin n → Bytes) (replicationFactor : Fin n → UInt32) (spaces : Fin n → List SngNamespace) :
    TokenRing n :=
  { daemons := fun i => tsdCreate (endpoint i) (replicationFactor i) (spaces i), inbox := fun _ => [], tickets := 0, taken := [] }

end Synergy
