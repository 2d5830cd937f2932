import Synergy.Handlers

set_option autoImplicit false

namespace Synergy

def blockString : List (Option UInt8) → Except Stop Bytes
  | [] => .error .undefined
  | none :: _ => .error .undefined
  | some c :: rest =>
      if c = 0 then .ok []
      else do
        let chars ← blockString rest
        return c :: chars

def relay (token : GenericToken) : List Out := if token.ttl > 0 ∨ token.ttl = -1 then [.token token] else []

-- What an outstanding TsConnect request gets once the space is active: no mode, just the endpoint.
def sendEndpoint (env : Platform) (direct : Bytes) (request : BlockingRequest) : Except Stop (List Out) := do
  let clientid ← sendClientid request.isLocal request.ticket request.clientid
  let endpoint ← endpointStr direct
  let str ← sendStr env request.isLocal request.ticket endpoint false
  return clientid :: str

-- A duplicate is not sent on.
def connectTokenNext (env : Platform) (self : Tsd) (tk : GenericToken) : Except Stop (Tsd × List Out) := do
  let spaceName ← blockString tk.buf1
  match self.spaceTable spaceName with
  | none => return (self, relay tk)
  | some element =>
      if element.isActivated then return (self, [])
      else if tk.len2 > tk.buf2.length ∨ tk.len2 > element.directEndpoint.length then throw .undefined
      else
        let direct := tk.buf2.take tk.len2 ++ element.directEndpoint.drop tk.len2
        let active := { element with directEndpoint := direct, isActivated := true }
        let answers ← (if element.isRequested then element.connectRequests else []).mapM (sendEndpoint env direct)
        let left := if element.isRequested then { active with connectRequests := [] } else active
        return ({ self with spaceTable := Function.update self.spaceTable spaceName (some left) }, answers.flatten ++ relay tk)

-- && binds closer than ||, and only then is the space deactivated.
def termTokenNext (self : Tsd) (tk : GenericToken) : Except Stop (Tsd × List Out) := do
  let spaceName ← blockString tk.buf1
  match self.spaceTable spaceName with
  | none => return (self, [])
  | some element =>
      let sent := if tk.ttl > 0 ∨ (tk.ttl = -1 ∧ element.isActivated = true) then [.token tk] else []
      let left := { element with isActivated := false }
      return ({ self with spaceTable := Function.update self.spaceTable spaceName (some left) }, sent)

-- kcmp compares two names as tplcmp does.
def kcmp (env : Platform) (c1 c2 : Bytes) : Except Stop Int :=
  tplcmp env { name := .str c1, anonId := 0, data := [], origin := 0 } { name := .str c2, anonId := 0, data := [], origin := 0 }

-- What a peer that may have the tuple is sent: the request, and the rest of the identity as a message of its own.
def requestTuple (env : Platform) (self : Tsd) (destination namespaceName identity : Bytes) : List Out :=
  let (len, endpoint) := p2pmSendStr env.host self.endpoint
  let (idLen, id) := p2pmSendStr env.host identity
  [.peer destination
      [p2pmSendUint32 env.host (UInt32.ofNat namespaceName.length), namespaceName,
        p2pmSendUint32 env.host TupleCommand.tsRequest.code, len, endpoint],
    .peer destination [idLen, id]]

-- who is the byte between the two names, which its sender has not written: stray is what it holds then.
def matchTokenNext (env : Platform) (stray : UInt8) (self : Tsd) (tk : GenericToken) : Except Stop (Tsd × List Out) := do
  let identity ← blockString tk.buf1
  let tupleName ← blockString (tk.buf1.drop (identity.length + 2))
  match tk.buf1[identity.length + 1]? with
  | none => throw .undefined
  | some byte =>
      let who := byte.getD stray
      if who ≠ 'N'.toUInt8 ∧ who ≠ 'A'.toUInt8 then return (self, relay tk)
      else
        match self.spaceTable identity with
        | none => return (self, relay tk)
        | some element => do
            let handle ← zlistxFind (fun pattern => kcmp env pattern tupleName) element.expectQueue
            match handle with
            | none => return (self, relay tk)
            | some _ =>
                let destination ← endpointStr tk.buf2
                let destination ← destination.chars
                if !env.connects destination then return (self, relay tk)
                else return (self, requestTuple env self destination identity (who :: tupleName) ++ relay tk)

-- assert(token->id == 2), and token_handler gets here with id 3 only.
def depositTokenNext : Except Stop (Tsd × List Out) := .error .aborted

def searchTokenNext (self : Tsd) : Except Stop (Tsd × List Out) := .ok (self, [])

-- token_handler, once it has received the token.
def tokenHandler (env : Platform) (stray : UInt8) (self : Tsd) (tk : GenericToken) : Except Stop (Tsd × List Out) :=
  if tk.id = 0 then connectTokenNext env self tk
  else if tk.id = 1 then termTokenNext self tk
  else if tk.id = 2 then matchTokenNext env stray self tk
  else if tk.id = 3 then depositTokenNext
  else if tk.id = 4 then searchTokenNext self
  else .ok (self, [])

def Out.asToken : Out → Option GenericToken
  | .token tk => some tk
  | _ => none

def tokensIn (sent : List Out) : List GenericToken := sent.filterMap Out.asToken

@[simp] theorem tokens_in_nil : tokensIn [] = [] := rfl

@[simp] theorem tokens_in_append (first second : List Out) : tokensIn (first ++ second) = tokensIn first ++ tokensIn second :=
  List.filterMap_append

@[simp] theorem tokens_in_token (tk : GenericToken) (later : List Out) : tokensIn (.token tk :: later) = tk :: tokensIn later := rfl

@[simp] theorem tokens_in_frame (isLocal : Bool) (ticket : Nat) (bytes : Bytes) (more : Bool) (later : List Out) :
    tokensIn (.frame isLocal ticket bytes more :: later) = tokensIn later := rfl

@[simp] theorem tokens_in_peer (endpoint : Bytes) (frames : List Bytes) (later : List Out) :
    tokensIn (.peer endpoint frames :: later) = tokensIn later := rfl

@[simp] theorem tokens_in_uint32 (env : Platform) (isLocal : Bool) (ticket : Nat) (word : UInt32) (more : Bool) (later : List Out) :
    tokensIn (sendUint32 env isLocal ticket word more :: later) = tokensIn later := rfl

@[simp] theorem tokens_in_uint64 (env : Platform) (isLocal : Bool) (ticket : Nat) (word : UInt64) (more : Bool) (later : List Out) :
    tokensIn (sendUint64 env isLocal ticket word more :: later) = tokensIn later := rfl

@[simp] theorem tokens_in_chunks (ticket : Nat) (chunks : List Chunk) : tokensIn (chunks.map (Out.chunk ticket)) = [] := by
  simp [tokensIn, Out.asToken]

theorem send_clientid_tokens (isLocal : Bool) (ticket : Nat) (clientid : CString) (out : Out)
    (sent : sendClientid isLocal ticket clientid = .ok out) (later : List Out) : tokensIn (out :: later) = tokensIn later := by
  obtain ⟨chars, _, sent⟩ := bind_ok _ _ _ sent
  cases sent
  rfl

theorem send_str_tokens (env : Platform) (isLocal : Bool) (ticket : Nat) (str : CString) (more : Bool) (outs : List Out)
    (sent : sendStr env isLocal ticket str more = .ok outs) : tokensIn outs = [] := by
  obtain ⟨chars, _, sent⟩ := bind_ok _ _ _ sent
  cases sent
  rfl

theorem send_endpoint_tokens (env : Platform) (direct : Bytes) (request : BlockingRequest) (outs : List Out)
    (sent : sendEndpoint env direct request = .ok outs) : tokensIn outs = [] := by
  obtain ⟨clientid, identity, sent⟩ := bind_ok _ _ _ sent
  obtain ⟨endpoint, _, sent⟩ := bind_ok _ _ _ sent
  obtain ⟨str, named, sent⟩ := bind_ok _ _ _ sent
  cases sent
  rw [send_clientid_tokens _ _ _ _ identity, send_str_tokens _ _ _ _ _ _ named]

theorem flatten_tokens {α : Type} (send : α → Except Stop (List Out))
    (silent : ∀ element outs, send element = .ok outs → tokensIn outs = []) (elements : List α) (outs : List (List Out))
    (sent : elements.mapM send = .ok outs) : tokensIn outs.flatten = [] := by
  induction elements generalizing outs with
  | nil =>
      cases sent
      rfl
  | cons element later ih =>
      rw [List.mapM_cons] at sent
      obtain ⟨first, here, sent⟩ := bind_ok _ _ _ sent
      obtain ⟨rest, there, sent⟩ := bind_ok _ _ _ sent
      cases sent
      rw [List.flatten_cons, tokens_in_append, silent element first here, ih rest there, List.nil_append]

@[simp] theorem relay_tokens (tk : GenericToken) : tokensIn (relay tk) = if tk.ttl > 0 ∨ tk.ttl = -1 then [tk] else [] := by
  unfold relay
  split <;> rfl

theorem match_token_relays (env : Platform) (stray : UInt8) (self next : Tsd) (tk : GenericToken) (sent : List Out)
    (done : matchTokenNext env stray self tk = .ok (next, sent)) : next = self ∧ tokensIn sent = tokensIn (relay tk) := by
  obtain ⟨identity, _, done⟩ := bind_ok _ _ _ done
  obtain ⟨tupleName, _, done⟩ := bind_ok _ _ _ done
  have skipped : ∀ result : Tsd × List Out, (pure (self, relay tk) : Except Stop (Tsd × List Out)) = .ok result →
      result.1 = self ∧ tokensIn result.2 = tokensIn (relay tk) := fun result same => by
    cases same
    exact ⟨rfl, rfl⟩
  cases byte : tk.buf1[identity.length + 1]? with
  | none =>
      simp only [byte] at done
      cases done
  | some byte =>
      simp only [*] at done
      split at done
      · exact skipped _ done
      · cases there : self.spaceTable identity with
        | none =>
            simp only [there] at done
            exact skipped _ done
        | some element =>
            simp only [there] at done
            obtain ⟨handle, _, done⟩ := bind_ok _ _ _ done
            cases handle with
            | none => exact skipped _ done
            | some found =>
                obtain ⟨destination, _, done⟩ := bind_ok _ _ _ done
                obtain ⟨chars, _, done⟩ := bind_ok _ _ _ done
                split at done
                · exact skipped _ done
                · cases done
                  exact ⟨rfl, rfl⟩

end Synergy
