import Synergy.TokenRing
import Synergy.Lib.Around
import Mathlib.Algebra.BigOperators.Group.Finset.Piecewise
import Mathlib.Data.Fintype.BigOperators

set_option autoImplicit false

namespace Synergy

open Around

variable {n : Nat} [NeZero n]

-- The daemons that have handled a token telling of the space, in that order.
def TokenRing.handlers (ring : TokenRing n) (spaceName : Bytes) : List (Fin n) :=
  (ring.taken.filter fun entry => (entry.2.token.signal spaceName).isSome).map Prod.fst

-- How far the activation token of M has come: k is 0 before M has sent it, then the number of times it has been passed on,
-- and n + 1 once M has it back.
structure Spread (spaceName endpoint : Bytes) (M : Fin n) (k : Nat) (ring : TokenRing n) : Prop where
  named : ring.Named
  origin : (ring.daemons M).endpoint = endpoint
  short : k ≤ n + 1
  master : ∃ element, ring.space spaceName M = some element ∧ element.tsMode = .master ∧ element.isActivated = decide (0 < k)
  workers : ∀ i, i ≠ M → ∀ element, ring.space spaceName i = some element → element.tsMode ≠ .master
  reached : ∀ d, 0 < d → d < n → ∀ element, ring.space spaceName (place M d) = some element →
    element.isActivated = decide (d < k) ∧ (d < k → cstr element.directEndpoint = endpoint)
  told : ∀ i, ring.told spaceName i =
    if 0 < k ∧ k ≤ n ∧ i = place M k then [⟨activationToken endpoint spaceName, M, k⟩] else []
  handlers : ring.handlers spaceName = (List.range (k - 1)).map fun d => place M (d + 1)

-- A space that a move has left as it was, but for what does not matter here.
inductive Unmoved : Option TsdElement → Option TsdElement → Prop where
  | same (space : Option TsdElement) : Unmoved space space
  | alike (before after : TsdElement) (tsMode : after.tsMode = before.tsMode) (active : after.isActivated = before.isActivated)
      (direct : before.tsMode ≠ .master → after.directEndpoint = before.directEndpoint) : Unmoved (some before) (some after)

theorem unmoved_forth (space : Option TsdElement) (before : TsdElement) (unmoved : Unmoved (some before) space) :
    ∃ after, space = some after ∧ after.tsMode = before.tsMode ∧ after.isActivated = before.isActivated := by
  cases unmoved with
  | same => exact ⟨before, rfl, rfl, rfl⟩
  | alike _ after tsMode active direct => exact ⟨after, rfl, tsMode, active⟩

theorem unmoved_back (space : Option TsdElement) (after : TsdElement) (unmoved : Unmoved space (some after)) :
    ∃ before, space = some before ∧ after.tsMode = before.tsMode ∧ after.isActivated = before.isActivated ∧
      (before.tsMode ≠ .master → after.directEndpoint = before.directEndpoint) := by
  cases unmoved with
  | same => exact ⟨after, rfl, rfl, rfl, fun _ => rfl⟩
  | alike before _ tsMode active direct => exact ⟨before, rfl, tsMode, active, direct⟩

theorem place_ne_start (M : Fin n) (d : Nat) (positive : 0 < d) (inside : d < n) : place M d ≠ M := by
  intro same
  have zero := place_injective M d 0 inside (by omega) (same.trans (place_zero M).symm)
  omega

theorem kept_spread (spaceName endpoint : Bytes) (M : Fin n) (k : Nat) (ring next : TokenRing n)
    (spread : Spread spaceName endpoint M k ring) (named : next.Named)
    (endpoints : (next.daemons M).endpoint = (ring.daemons M).endpoint)
    (unmoved : ∀ i, Unmoved (ring.space spaceName i) (next.space spaceName i))
    (told : ∀ i, next.told spaceName i = ring.told spaceName i) (handlers : next.handlers spaceName = ring.handlers spaceName) :
    Spread spaceName endpoint M k next where
  named := named
  origin := endpoints.trans spread.origin
  short := spread.short
  master := by
    obtain ⟨element, found, mode, active⟩ := spread.master
    obtain ⟨after, there, sameMode, sameActive⟩ := unmoved_forth _ element (found ▸ unmoved M)
    exact ⟨after, there, sameMode.trans mode, sameActive.trans active⟩
  workers := by
    intro i other after there
    obtain ⟨before, found, sameMode, _⟩ := unmoved_back _ after (there ▸ unmoved i)
    rw [sameMode]
    exact spread.workers i other before found
  reached := by
    intro d positive inside after there
    obtain ⟨before, found, _, sameActive, sameDirect⟩ := unmoved_back _ after (there ▸ unmoved (place M d))
    obtain ⟨active, direct⟩ := spread.reached d positive inside before found
    have worker := spread.workers _ (place_ne_start M d positive inside) before found
    exact ⟨sameActive.trans active, fun passed => (sameDirect worker).symm ▸ direct passed⟩
  told := fun i => (told i).trans (spread.told i)
  handlers := handlers.trans spread.handlers

omit [NeZero n] in
theorem frame_spaces (ring next : TokenRing n) (i : Fin n) (spaceName : Bytes) (frame : ring.Frame next i) (j : Fin n) (other : j ≠ i) :
    next.space spaceName j = ring.space spaceName j := by
  rw [TokenRing.space, TokenRing.space, frame.others j other]

theorem request_spread (env : Fin n → Platform) (spaceName endpoint : Bytes) (M : Fin n) (k : Nat) (ring next : TokenRing n) (i : Fin n)
    (arrival : Arrival) (mode : UInt32) (spread : Spread spaceName endpoint M k ring) (asks : arrival.call = .tsOpen mode)
    (moved : ring.step env (arrival.move i) = some next) : ∃ k, Spread spaceName endpoint M k next := by
  obtain ⟨frame, taken, tokens, requested, told⟩ :=
    hears_request env ring next i arrival spaceName spread.named (by rw [asks]; trivial) moved
  have handlers : next.handlers spaceName = ring.handlers spaceName := by rw [TokenRing.handlers, taken, TokenRing.handlers]
  have keeps : tokens = [] → Unmoved (ring.space spaceName i) (next.space spaceName i) → Spread spaceName endpoint M k next := by
    intro silent unmoved
    refine kept_spread spaceName endpoint M k ring next spread (frame.named spread.named) (frame.endpoints M) (fun j => ?_) (fun j => ?_)
      handlers
    · by_cases here : j = i
      · rw [here]
        exact unmoved
      · rw [frame_spaces ring next i spaceName frame j here]
        exact Unmoved.same _
    · rw [told j, silent, List.map_nil, ite_self, List.append_nil]
  generalize old : ring.space spaceName i = space at requested keeps
  generalize new : next.space spaceName i = left at requested keeps
  cases requested with
  | untouched space elsewhere => exact ⟨k, keeps rfl (Unmoved.same _)⟩
  | closed before after here asked open_ name tsMode shut direct =>
      rw [asks] at asked
      cases asked
  | connected word before after tokens here asked effect =>
      by_cases signals : before.opens word = true ∧ before.isActivated = false
      · have master : before.tsMode = .master := by
          have opens := signals.1
          simp only [TsdElement.opens, decide_eq_true_eq] at opens
          exact opens.1
        have atM : i = M := by
          by_contra other
          exact spread.workers i other before old master
        subst atM
        obtain ⟨element, found, _, active⟩ := spread.master
        have same : element = before := Option.some.inj (found.symm.trans old)
        have zero : k = 0 := by
          rw [same, signals.2] at active
          simpa using active.symm
        subst zero
        have positive := NeZero.pos n
        have sent : tokens = [activationToken endpoint spaceName] := by
          rw [effect.sent, if_pos signals, spread.origin, spread.named i spaceName before old]
        refine ⟨1, frame.named spread.named, (frame.endpoints i).trans spread.origin, by omega,
          ⟨after, new, effect.tsMode.trans master, by rw [effect.active, signals.1, Bool.or_true]; rfl⟩,
          fun j other => ?_, fun d ahead inside => ?_, fun j => ?_, handlers.trans spread.handlers⟩
        · rw [frame_spaces ring next i spaceName frame j other]
          exact spread.workers j other
        · rw [frame_spaces ring next i spaceName frame _ (place_ne_start i d ahead inside)]
          intro element found
          obtain ⟨inactive, _⟩ := spread.reached d ahead inside element found
          have notYet : ¬ d < 1 := by omega
          exact ⟨by rw [inactive]; simp [notYet], fun passed => absurd passed notYet⟩
        · have first : place i 1 = i + 1 := by rw [place_succ, place_zero]
          rw [told j, spread.told j, if_neg (by omega), List.nil_append, sent, first]
          simp only [List.map_cons, List.map_nil, Nat.zero_lt_one, true_and, Nat.one_le_iff_ne_zero.mpr (NeZero.ne n)]
      · have silent : tokens = [] := by rw [effect.sent, if_neg signals]
        refine ⟨k, keeps silent (Unmoved.alike before after effect.tsMode ?_ effect.direct)⟩
        rw [effect.active]
        cases opens : before.opens word with
        | true =>
            have running : before.isActivated = true := by
              by_contra inactive
              exact signals ⟨opens, by simpa using inactive⟩
            rw [running, Bool.or_true]
        | false => rw [Bool.or_false]

theorem activation_tells (endpoint spaceName : Bytes) (clean : NulFree spaceName) :
    (activationToken endpoint spaceName).signal spaceName = some true := by
  rw [signal_of_space spaceName _ (activation_named endpoint spaceName clean)]
  rfl

theorem endpoint_copied (endpoint direct : Bytes) (clean : NulFree endpoint) :
    cstr ((endpoint ++ [0]).take (endpoint.length + 1) ++ direct) = endpoint := by
  rw [List.take_of_length_le (by simp), List.append_assoc, List.singleton_append, cstr_terminated endpoint direct clean]

omit [NeZero n] in
theorem told_split (spaceName : Bytes) (ring : TokenRing n) (i : Fin n) (passing : Passing n) (later : List (Passing n))
    (waiting : ring.inbox i = passing :: later) :
    ring.told spaceName i =
      if (passing.token.signal spaceName).isSome then passing :: tellings spaceName later else tellings spaceName later := by
  rw [TokenRing.told, waiting, tellings, List.filter_cons]
  rfl

omit [NeZero n] in
theorem handlers_after (spaceName : Bytes) (ring next : TokenRing n) (i : Fin n) (passing : Passing n)
    (taken : next.taken = ring.taken ++ [(i, passing)]) :
    next.handlers spaceName = ring.handlers spaceName ++ if (passing.token.signal spaceName).isSome then [i] else [] := by
  rw [TokenRing.handlers, taken, List.filter_append, List.map_append, TokenRing.handlers]
  by_cases tells : (passing.token.signal spaceName).isSome = true
  · simp only [List.filter_cons, tells, if_true, List.filter_nil, List.map_cons, List.map_nil]
  · simp only [List.filter_cons, tells, if_false, Bool.false_eq_true, List.filter_nil, List.map_nil]

theorem other_spread (spaceName endpoint : Bytes) (M : Fin n) (k : Nat) (ring next : TokenRing n) (i : Fin n) (passing : Passing n)
    (later : List (Passing n)) (tokens : List GenericToken) (spread : Spread spaceName endpoint M k ring) (frame : ring.Frame next i)
    (waiting : ring.inbox i = passing :: later) (taken : next.taken = ring.taken ++ [(i, passing)])
    (took : Taken (ring.daemons i) passing.token (next.daemons i) tokens) (silent : passing.token.signal spaceName = none)
    (told : ∀ j, next.told spaceName j = (if j = i then tellings spaceName later else ring.told spaceName j) ++
      if j = i + 1 then (tellsOf spaceName tokens).map fun tk => ⟨tk, passing.origin, passing.hops + 1⟩ else []) :
    Spread spaceName endpoint M k next := by
  obtain ⟨same, nothing⟩ := silent_taken _ _ _ _ spaceName took silent
  have split := told_split spaceName ring i passing later waiting
  have handlers := handlers_after spaceName ring next i passing taken
  simp only [silent, Option.isSome_none, Bool.false_eq_true, if_false] at split handlers
  refine kept_spread spaceName endpoint M k ring next spread (frame.named spread.named) (frame.endpoints M) (fun j => ?_)
    (fun j => ?_) (by rw [handlers, List.append_nil])
  · by_cases here : j = i
    · rw [here, TokenRing.space, TokenRing.space, same]
      exact Unmoved.same _
    · rw [frame_spaces ring next i spaceName frame j here]
      exact Unmoved.same _
  · rw [told j, nothing, List.map_nil, ite_self, List.append_nil]
    by_cases here : j = i
    · rw [if_pos here, here, split]
    · rw [if_neg here]

theorem absorbed_spread (spaceName endpoint : Bytes) (M : Fin n) (ring next : TokenRing n) (tokens : List GenericToken)
    (spread : Spread spaceName endpoint M n ring) (frame : ring.Frame next M)
    (outcome : Told (activationToken endpoint spaceName) true (ring.space spaceName M) (next.space spaceName M) tokens)
    (onward : ∀ j, next.told spaceName j = if j = place M (n + 1) then (tellsOf spaceName tokens).map fun tk => ⟨tk, M, n + 1⟩ else [])
    (handlers : next.handlers spaceName = (List.range n).map fun d => place M (d + 1)) :
    Spread spaceName endpoint M (n + 1) next := by
  have positive := NeZero.pos n
  obtain ⟨element, there, tsMode, active⟩ := spread.master
  rw [decide_eq_true positive] at active
  have absorbed : next.space spaceName M = ring.space spaceName M ∧ tokens = [] := by
    generalize old : ring.space spaceName M = space at outcome there
    generalize new : next.space spaceName M = left at outcome
    cases outcome with
    | missing => cases there
    | known element already => exact ⟨rfl, rfl⟩
    | turned before after turned =>
        rw [Option.some.inj there, active] at turned
        cases turned
  have spaces : ∀ j, next.space spaceName j = ring.space spaceName j := by
    intro j
    by_cases here : j = M
    · rw [here]
      exact absorbed.1
    · exact frame_spaces ring next M spaceName frame j here
  refine ⟨frame.named spread.named, (frame.endpoints M).trans spread.origin, Nat.le_refl _,
    ⟨element, (spaces M).trans there, tsMode, by rw [active, decide_eq_true (Nat.succ_pos n)]⟩,
    fun j other => ?_, fun d ahead inside => ?_, fun j => ?_, handlers⟩
  · rw [spaces j]
    exact spread.workers j other
  · rw [spaces]
    intro element there
    obtain ⟨active, direct⟩ := spread.reached d ahead inside element there
    exact ⟨by rw [active, decide_eq_true inside, decide_eq_true (by omega : d < n + 1)], fun _ => direct inside⟩
  · rw [onward j, absorbed.2, if_neg (by omega : ¬ (0 < n + 1 ∧ n + 1 ≤ n ∧ j = place M (n + 1)))]
    exact ite_self _

theorem advanced_spread (spaceName endpoint : Bytes) (M : Fin n) (k : Nat) (ring next : TokenRing n) (tokens : List GenericToken)
    (clean : NulFree endpoint) (nameClean : NulFree spaceName) (positive : 0 < k) (inside : k < n)
    (spread : Spread spaceName endpoint M k ring) (frame : ring.Frame next (place M k))
    (outcome : Told (activationToken endpoint spaceName) true (ring.space spaceName (place M k)) (next.space spaceName (place M k)) tokens)
    (onward : ∀ j, next.told spaceName j = if j = place M (k + 1) then (tellsOf spaceName tokens).map fun tk => ⟨tk, M, k + 1⟩ else [])
    (handlers : next.handlers spaceName = (List.range k).map fun d => place M (d + 1)) :
    Spread spaceName endpoint M (k + 1) next := by
  have notM := place_ne_start M k positive inside
  have sent : tokens = [activationToken endpoint spaceName] ∧ ∀ after, next.space spaceName (place M k) = some after →
      after.tsMode ≠ .master ∧ after.isActivated = true ∧ cstr after.directEndpoint = endpoint := by
    have inactive := spread.reached k positive inside
    have worker := spread.workers _ notM
    generalize ring.space spaceName (place M k) = space at outcome inactive worker
    generalize next.space spaceName (place M k) = left at outcome
    cases outcome with
    | missing => exact ⟨rfl, fun after none_ => by cases none_⟩
    | known element already =>
        have closed := (inactive element rfl).1
        rw [already, decide_eq_false (Nat.lt_irrefl k)] at closed
        cases closed
    | turned before after turned active tsMode direct =>
        refine ⟨rfl, fun other same => ?_⟩
        cases same
        refine ⟨tsMode ▸ worker before rfl, active, ?_⟩
        rw [(direct rfl).2]
        exact endpoint_copied endpoint _ clean
  have relayed : tellsOf spaceName tokens = tokens := by
    rw [sent.1]
    refine List.filter_eq_self.mpr fun tk member => ?_
    rw [List.mem_singleton.mp member, activation_tells endpoint spaceName nameClean]
    rfl
  refine ⟨frame.named spread.named, (frame.endpoints M).trans spread.origin, by omega, ?_,
    fun j other element there => ?_, fun d ahead within element there => ?_, fun j => ?_, handlers⟩
  · rw [frame_spaces ring next _ spaceName frame M (Ne.symm notM), decide_eq_true (Nat.succ_pos k), ← decide_eq_true positive]
    exact spread.master
  · by_cases here : j = place M k
    · exact (sent.2 element (here ▸ there)).1
    · rw [frame_spaces ring next _ spaceName frame j here] at there
      exact spread.workers j other element there
  · by_cases here : place M d = place M k
    · have same : d = k := place_injective M d k within inside here
      obtain ⟨_, active, direct⟩ := sent.2 element (here ▸ there)
      exact ⟨by rw [active, decide_eq_true (by omega : d < k + 1)], fun _ => direct⟩
    · rw [frame_spaces ring next _ spaceName frame _ here] at there
      obtain ⟨active, direct⟩ := spread.reached d ahead within element there
      have differ : d ≠ k := fun same => here (by rw [same])
      refine ⟨?_, fun passed => direct (by omega)⟩
      rw [active]
      exact decide_eq_decide.mpr ⟨fun _ => by omega, fun _ => by omega⟩
  · rw [onward j, relayed, sent.1]
    by_cases there : j = place M (k + 1)
    · rw [if_pos there, if_pos ⟨by omega, by omega, there⟩]
      rfl
    · rw [if_neg there, if_neg fun at_ => there at_.2.2]

-- The token is at place k of the ring and nowhere else, so what a daemon takes is that token or does not matter.
theorem delivery_spread (env : Fin n → Platform) (spaceName endpoint : Bytes) (M : Fin n) (k : Nat) (ring next : TokenRing n) (i : Fin n)
    (stray : UInt8) (clean : NulFree endpoint) (nameClean : NulFree spaceName) (spread : Spread spaceName endpoint M k ring)
    (moved : ring.step env (.delivers i stray) = some next) : ∃ k, Spread spaceName endpoint M k next := by
  obtain ⟨passing, later, tokens, waiting, frame, taken, took, told⟩ := delivers_token env ring next i stray spread.named moved
  have split := told_split spaceName ring i passing later waiting
  have handlers := handlers_after spaceName ring next i passing taken
  cases signal : passing.token.signal spaceName with
  | none => exact ⟨k, other_spread spaceName endpoint M k ring next i passing
      later tokens spread frame waiting taken took signal (told spaceName)⟩
  | some opens =>
      simp only [signal, Option.isSome_some, if_true] at split handlers
      have found := spread.told i
      rw [split] at found
      by_cases present : 0 < k ∧ k ≤ n ∧ i = place M k
      · rw [if_pos present] at found
        obtain ⟨samePassing, nothingElse⟩ := List.cons.inj found
        obtain ⟨positive, round, position⟩ := present
        subst samePassing position
        have turn : opens = true := Option.some.inj (signal.symm.trans (activation_tells endpoint spaceName nameClean))
        subst turn
        have outcome : Told _ true (ring.space spaceName (place M k)) (next.space spaceName (place M k)) tokens :=
          told_taken _ _ _ _ spaceName true took signal rfl
        have onward : ∀ j, next.told spaceName j = if j = place M (k + 1) then
            (tellsOf spaceName tokens).map fun tk => ⟨tk, M, k + 1⟩ else [] := by
          intro j
          rw [told spaceName j, place_succ]
          by_cases here : j = place M k
          · rw [if_pos here, nothingElse, List.nil_append]
          · have absent : ring.told spaceName j = [] := by rw [spread.told j, if_neg fun at_ => here at_.2.2]
            rw [if_neg here, absent, List.nil_append]
        obtain ⟨before, same⟩ : ∃ before, k = before + 1 := ⟨k - 1, by omega⟩
        have soFar : next.handlers spaceName = (List.range k).map fun d => place M (d + 1) := by
          rw [handlers, spread.handlers, same, Nat.add_sub_cancel, List.range_succ, List.map_append, List.map_singleton]
        by_cases full : k = n
        · subst full
          rw [place_full] at frame outcome
          exact ⟨k + 1, absorbed_spread spaceName endpoint M ring next tokens spread frame outcome onward soFar⟩
        · exact ⟨k + 1, advanced_spread spaceName endpoint M k ring next tokens clean nameClean positive (by omega) spread frame outcome
            onward soFar⟩
      · rw [if_neg present] at found
        cases found

-- All daemons that hold the space hold it closed, and M as its master.
structure TokenRing.Fresh (spaceName : Bytes) (M : Fin n) (ring : TokenRing n) : Prop where
  named : ring.Named
  master : ∃ element, ring.space spaceName M = some element ∧ element.tsMode = .master
  workers : ∀ i, i ≠ M → ∀ element, ring.space spaceName i = some element → element.tsMode ≠ .master
  closed : ∀ i element, ring.space spaceName i = some element → element.isActivated = false
  quiet : ring.Quiet spaceName
  unused : ring.handlers spaceName = []

theorem fresh_spread (spaceName : Bytes) (M : Fin n) (ring : TokenRing n) (fresh : ring.Fresh spaceName M) :
    Spread spaceName (ring.daemons M).endpoint M 0 ring where
  named := fresh.named
  origin := rfl
  short := Nat.zero_le _
  master := by
    obtain ⟨element, found, tsMode⟩ := fresh.master
    exact ⟨element, found, tsMode, fresh.closed M element found⟩
  workers := fresh.workers
  reached := fun d _ _ element found => ⟨fresh.closed _ element found, fun passed => absurd passed (Nat.not_lt_zero d)⟩
  told := fun i => (fresh.quiet i).trans (if_neg (by omega)).symm
  handlers := fresh.unused

-- The token and the requests that wait for it fit where they have to go.
def Roomy (spaceName endpoint : Bytes) (ring : TokenRing n) : Prop :=
  ∀ i element, ring.space spaceName i = some element →
    endpoint.length + 1 ≤ element.directEndpoint.length ∧ StringClients element.connectRequests

theorem taken_roomy (self next : Tsd) (tk : GenericToken) (tokens : List GenericToken) (took : Taken self tk next tokens)
    (spaceName : Bytes) (after : TsdElement) (found : next.spaceTable spaceName = some after) :
    ∃ before, self.spaceTable spaceName = some before ∧ after.directEndpoint.length = before.directEndpoint.length ∧
      after.connectRequests ⊆ before.connectRequests := by
  have unchanged : ∀ table : Bytes → Option TsdElement, table spaceName = some after → ∃ before, table spaceName = some before ∧
      after.directEndpoint.length = before.directEndpoint.length ∧ after.connectRequests ⊆ before.connectRequests :=
    fun _ there => ⟨after, there, rfl, List.Subset.refl _⟩
  cases took with
  | activates named element waiting id string there inactive room left =>
      change Function.update self.spaceTable named _ spaceName = some after at found
      obtain ⟨rfl, rfl⟩ | ⟨_, elsewhere⟩ := update_at _ _ _ _ _ found
      · refine ⟨element, there, ?_, left⟩
        rw [List.length_append, List.length_take, List.length_drop]
        omega
      · exact unchanged self.spaceTable elsewhere
  | decomissions named element id string there =>
      change Function.update self.spaceTable named _ spaceName = some after at found
      obtain ⟨rfl, rfl⟩ | ⟨_, elsewhere⟩ := update_at _ _ _ _ _ found
      · exact ⟨element, there, rfl, List.Subset.refl _⟩
      · exact unchanged self.spaceTable elsewhere
  | _ => exact unchanged self.spaceTable found

theorem requested_roomy (self : Tsd) (spaceName : Bytes) (arrival : Arrival) (space : Option TsdElement) (after : TsdElement)
    (tokens : List GenericToken) (mode : UInt32) (asks : arrival.call = .tsOpen mode)
    (requested : Requested self spaceName arrival space (some after) tokens) :
    ∃ before, space = some before ∧ after.directEndpoint.length = before.directEndpoint.length ∧
      (StringClients before.connectRequests → StringClients after.connectRequests) := by
  cases requested with
  | untouched elsewhere => exact ⟨after, rfl, rfl, id⟩
  | connected word before _ tokens here asked effect => exact ⟨before, rfl, effect.room, effect.clients⟩
  | closed before _ here asked =>
      rw [asks] at asked
      cases asked

theorem move_spread (env : Fin n → Platform) (spaceName endpoint : Bytes) (M : Fin n) (ring next : TokenRing n) (move : Move n)
    (clean : NulFree endpoint) (nameClean : NulFree spaceName) (spread : ∃ k, Spread spaceName endpoint M k ring)
    (connects : move.Calls fun _ arrival => ∃ mode, arrival.call = .tsOpen mode) (moved : ring.step env move = some next) :
    (∃ k, Spread spaceName endpoint M k next) ∧ (Roomy spaceName endpoint ring → Roomy spaceName endpoint next) := by
  obtain ⟨k, spread⟩ := spread
  cases connects with
  | asks i arrival asked =>
      obtain ⟨mode, asked⟩ := asked
      obtain ⟨frame, _, tokens, requested, _⟩ :=
        hears_request env ring next i arrival spaceName spread.named (by rw [asked]; trivial) moved
      refine ⟨request_spread env spaceName endpoint M k ring next i arrival mode spread asked moved, fun roomy j after found => ?_⟩
      by_cases here : j = i
      · subst here
        rw [found] at requested
        obtain ⟨before, there, room, clients⟩ := requested_roomy _ _ _ _ _ _ mode asked requested
        obtain ⟨enough, strings⟩ := roomy j before there
        exact ⟨room ▸ enough, clients strings⟩
      · rw [frame_spaces ring next i spaceName frame j here] at found
        exact roomy j after found
  | delivers i stray =>
      obtain ⟨passing, later, tokens, _, frame, _, took, _⟩ := delivers_token env ring next i stray spread.named moved
      refine ⟨delivery_spread env spaceName endpoint M k ring next i stray clean nameClean spread moved, fun roomy j after found => ?_⟩
      by_cases here : j = i
      · subst here
        obtain ⟨before, there, room, fewer⟩ := taken_roomy _ _ _ _ took spaceName after found
        obtain ⟨enough, strings⟩ := roomy j before there
        exact ⟨room ▸ enough, fun request member => strings request (fewer member)⟩
      · rw [frame_spaces ring next i spaceName frame j here] at found
        exact roomy j after found

theorem send_endpoint_succeeds (env : Platform) (direct : Bytes) (request : BlockingRequest) (ends : 0 ∈ direct)
    (client : ∃ clientid, request.clientid = .str clientid) : ∃ outs, sendEndpoint env direct request = .ok outs := by
  obtain ⟨clientid, client⟩ := client
  simp only [sendEndpoint, sendClientid, client, CString.chars, endpointStr, ends, if_true, sendStr, bind, Except.bind, pure, Except.pure]
  exact ⟨_, rfl⟩

theorem map_m_succeeds {α β : Type} (send : α → Except Stop β) (elements : List α)
    (each : ∀ element ∈ elements, ∃ result, send element = .ok result) : ∃ results, elements.mapM send = .ok results := by
  induction elements with
  | nil => exact ⟨[], rfl⟩
  | cons element later ih =>
      obtain ⟨first, here⟩ := each element (by simp)
      obtain ⟨rest, there⟩ := ih fun other member => each other (by simp [member])
      exact ⟨first :: rest, by rw [List.mapM_cons, here, there]; rfl⟩

theorem connect_token_succeeds (env : Platform) (self : Tsd) (spaceName endpoint : Bytes) (nameClean : NulFree spaceName)
    (ready : ∀ element, self.spaceTable spaceName = some element →
      endpoint.length + 1 ≤ element.directEndpoint.length ∧ StringClients element.connectRequests) :
    ∃ result, connectTokenNext env self (activationToken endpoint spaceName) = .ok result := by
  simp only [connectTokenNext, activation_named endpoint spaceName nameClean, bind, Except.bind]
  cases there : self.spaceTable spaceName with
  | none => exact ⟨_, rfl⟩
  | some element =>
      obtain ⟨room, clients⟩ := ready element there
      have fits : ¬ ((activationToken endpoint spaceName).len2 > (activationToken endpoint spaceName).buf2.length ∨
          (activationToken endpoint spaceName).len2 > element.directEndpoint.length) := by
        simp only [activationToken, List.length_append, List.length_singleton]
        omega
      dsimp only
      by_cases active : element.isActivated = true
      · exact ⟨_, if_pos active⟩
      · rw [if_neg active, if_neg fits]
        have ends : (0 : UInt8) ∈ (activationToken endpoint spaceName).buf2.take (activationToken endpoint spaceName).len2 ++
            element.directEndpoint.drop (activationToken endpoint spaceName).len2 := by
          refine List.mem_append_left _ ?_
          rw [activationToken, List.take_of_length_le (by simp)]
          simp
        obtain ⟨answers, sent⟩ := map_m_succeeds (sendEndpoint env _) (if element.isRequested then element.connectRequests else [])
          fun request member => send_endpoint_succeeds env _ request ends (by
            split at member
            · exact clients request member
            · cases member)
        rw [sent]
        exact ⟨_, rfl⟩

theorem spread_once (spaceName endpoint : Bytes) (M : Fin n) (k : Nat) (ring : TokenRing n) (spread : Spread spaceName endpoint M k ring) :
    ∑ i, (ring.told spaceName i).length ≤ 1 := by
  by_cases travels : 0 < k ∧ k ≤ n
  · have lengths : ∀ i, (ring.told spaceName i).length = if i = place M k then 1 else 0 := by
      intro i
      rw [spread.told i]
      by_cases here : i = place M k
      · rw [if_pos ⟨travels.1, travels.2, here⟩, if_pos here]
        rfl
      · rw [if_neg fun at_ => here at_.2.2, if_neg here]
        rfl
    simp only [lengths, Finset.sum_ite_eq', Finset.mem_univ, if_true, le_refl]
  · have lengths : ∀ i, (ring.told spaceName i).length = 0 := by
      intro i
      rw [spread.told i, if_neg fun at_ => travels ⟨at_.1, at_.2.1⟩]
      rfl
    simp only [lengths, Finset.sum_const_zero, Nat.zero_le]

theorem spread_nodup (spaceName endpoint : Bytes) (M : Fin n) (k : Nat) (ring : TokenRing n) (spread : Spread spaceName endpoint M k ring) :
    (ring.handlers spaceName).Nodup := by
  rw [spread.handlers]
  refine List.Nodup.map_on (fun d first e second same => ?_) List.nodup_range
  have bound := spread.short
  rw [List.mem_range] at first second
  rw [place_succ, place_succ] at same
  exact place_injective M d e (by omega) (by omega) (add_right_cancel same)

theorem spread_done (spaceName endpoint : Bytes) (M : Fin n) (k : Nat) (ring : TokenRing n) (spread : Spread spaceName endpoint M k ring)
    (active : ring.active spaceName M = true) (quiet : ring.Quiet spaceName) (i : Fin n) (element : TsdElement)
    (found : ring.space spaceName i = some element) :
    element.isActivated = true ∧ (i ≠ M → cstr element.directEndpoint = endpoint) := by
  obtain ⟨master, there, _, sent⟩ := spread.master
  have positive : 0 < k := by
    rw [TokenRing.active, there] at active
    exact of_decide_eq_true (sent.symm.trans active)
  have beyond : n < k := by
    by_contra travels
    have here := quiet (place M k)
    rw [spread.told, if_pos ⟨positive, by omega, rfl⟩] at here
    cases here
  obtain ⟨d, inside, same⟩ := place_surjective M i
  by_cases start : d = 0
  · have atM : i = M := by rw [← same, start, place_zero]
    rw [atM, there] at found
    cases found
    exact ⟨by rw [sent, decide_eq_true positive], fun other => absurd atM other⟩
  · subst same
    obtain ⟨reached, direct⟩ := spread.reached d (by omega) inside element found
    exact ⟨by rw [reached, decide_eq_true (by omega : d < k)], fun _ => direct (by omega)⟩

-- Whatever TsConnects the daemons get, and in whatever order they take their tokens.
theorem activation_token_reaches_everyone_once (env : Fin n → Platform) (spaceName : Bytes) (M : Fin n) (start final : TokenRing n)
    (moves : List (Move n)) (fresh : start.Fresh spaceName M) (clean : NulFree (start.daemons M).endpoint) (nameClean : NulFree spaceName)
    (connects : ∀ move ∈ moves, move.Calls fun _ arrival => ∃ mode, arrival.call = .tsOpen mode)
    (ran : Runs.run (TokenRing.step env) start moves = some final) :
    -- one token at a time, and nobody handles it twice
    ∑ i, (final.told spaceName i).length ≤ 1 ∧ (final.handlers spaceName).Nodup ∧
    -- it has come from M in as many hops as M is away, and n of them lead back to M
    (∀ i, ∀ passing ∈ final.told spaceName i,
      passing.token.signal spaceName = some true ∧ passing.origin = M ∧ passing.hops ≤ n ∧ i = place M passing.hops) ∧
    -- once it has gone round, all daemons that hold the space have it open and know where M is
    (final.active spaceName M = true → final.Quiet spaceName → ∀ i element, final.space spaceName i = some element →
      element.isActivated = true ∧ (i ≠ M → cstr element.directEndpoint = (start.daemons M).endpoint)) ∧
    -- and until then the daemon it waits for can take it
    (Roomy spaceName (start.daemons M).endpoint start → ∀ i passing later stray, final.inbox i = passing :: later →
      (passing.token.signal spaceName).isSome → ∃ next, final.step env (.delivers i stray) = some next) := by
  obtain ⟨⟨k, spread⟩, roomy⟩ := Runs.run_guarded_invariant (TokenRing.step env)
    (fun _ move => move.Calls fun _ arrival => ∃ mode, arrival.call = .tsOpen mode)
    (fun ring => (∃ k, Spread spaceName (start.daemons M).endpoint M k ring) ∧
      (Roomy spaceName (start.daemons M).endpoint start → Roomy spaceName (start.daemons M).endpoint ring))
    (fun ring move next inv permitted moved => by
      obtain ⟨spread, kept⟩ := move_spread env spaceName _ M ring next move clean nameClean inv.1 permitted moved
      exact ⟨spread, fun room => kept (inv.2 room)⟩)
    start final moves ⟨⟨0, fresh_spread spaceName M start fresh⟩, id⟩
    (Runs.meets_of_forall _ _ _ _ fun move member _ => connects move member) ran
  have here : ∀ i, ∀ passing ∈ final.told spaceName i, k ≤ n ∧ i = place M k ∧
      passing = ⟨activationToken (start.daemons M).endpoint spaceName, M, k⟩ := by
    intro i passing member
    rw [spread.told i] at member
    split at member
    · rename_i travels
      exact ⟨travels.2.1, travels.2.2, List.mem_singleton.mp member⟩
    · cases member
  refine ⟨spread_once spaceName _ M k final spread, spread_nodup spaceName _ M k final spread, fun i passing member => ?_,
    spread_done spaceName _ M k final spread, fun room i passing later stray waiting tells => ?_⟩
  · obtain ⟨round, position, same⟩ := here i passing member
    rw [same]
    exact ⟨activation_tells _ spaceName nameClean, rfl, round, position⟩
  · have member : passing ∈ final.told spaceName i := by
      rw [told_split spaceName final i passing later waiting, if_pos tells]
      exact List.mem_cons_self
    obtain ⟨_, _, same⟩ := here i passing member
    subst same
    obtain ⟨result, done⟩ := connect_token_succeeds (env i) (final.daemons i) spaceName (start.daemons M).endpoint nameClean
      fun element found => roomy room i element found
    have handled : tokenHandler (env i) stray (final.daemons i) (activationToken (start.daemons M).endpoint spaceName) = .ok result :=
      (if_pos rfl).trans done
    simp only [TokenRing.step, waiting, handled]
    exact ⟨_, rfl⟩

-- Two daemons that hold a space in token mode, the first as its master.
def sampleRingSpaces (i : Fin 2) : List SngNamespace :=
  [{ name := [115], directEndpoint := List.replicate 256 0, tsMode := if i.val = 0 then .master else .worker, tsdMode := .token }]

def sampleTokenRing : TokenRing 2 := TokenRing.start (fun i => if i.val = 0 then [65] else [66]) (fun _ => 1) sampleRingSpaces

def sampleConnect (client : Identity) (mode : UInt32) : Arrival where
  client := client
  ts := { host := .little, isLocal := false, tsname := sampleSpaceName }
  call := .tsOpen mode
  chunks := []

theorem sample_ring_fresh : sampleTokenRing.Fresh [115] 0 where
  named := fun i => created_named _ _ _
  master := ⟨_, rfl, rfl⟩
  workers := by
    intro i other element found
    have second : i = 1 := by omega
    subst second
    cases found
    decide
  closed := by
    intro i element found
    by_cases first : i = 0
    · subst first
      cases found
      rfl
    · have second : i = 1 := by omega
      subst second
      cases found
      rfl
  quiet := fun _ => rfl
  unused := rfl

def sampleRingMoves : List (Move 2) :=
  [(sampleConnect otherClient 1).move (Fin.last 1), (sampleConnect sampleClient 0).move (Fin.last 1).rev, .delivers (Fin.last 1) 0,
    (sampleConnect sampleClient 0).move (Fin.last 1).rev, .delivers (Fin.last 1).rev 0]

theorem sample_moves_connect : ∀ move ∈ sampleRingMoves, move.Calls fun _ arrival => ∃ mode, arrival.call = .tsOpen mode := by
  intro move member
  simp only [sampleRingMoves, List.mem_cons, List.not_mem_nil, or_false] at member
  rcases member with same | same | same | same | same <;> subst same
  · exact Move.Calls.asks 1 _ ⟨1, rfl⟩
  · exact Move.Calls.asks 0 _ ⟨0, rfl⟩
  · exact Move.Calls.delivers 1 0
  · exact Move.Calls.asks 0 _ ⟨0, rfl⟩
  · exact Move.Calls.delivers 0 0

set_option maxRecDepth 8000 in
theorem activation_token_reaches_two : ∃ final, Runs.run
    (TokenRing.step fun _ => samplePlatform) sampleTokenRing sampleRingMoves = some final ∧
    final.handlers [115] = [1, 0] ∧ ∀ i element, final.space [115] i = some element →
      element.isActivated = true ∧ (i ≠ 0 → cstr element.directEndpoint = [65]) := by
  have reached : ∃ final, Runs.run (TokenRing.step fun _ => samplePlatform) sampleTokenRing sampleRingMoves = some final ∧
      final.handlers [115] = [1, 0] ∧ final.active [115] 0 = true ∧ final.Quiet [115] :=
    ⟨_, rfl, rfl, rfl, fun i => match i with | 0 => rfl | 1 => rfl⟩
  obtain ⟨final, ran, handlers, active, quiet⟩ := reached
  exact ⟨final, ran, handlers,
    (activation_token_reaches_everyone_once (fun _ => samplePlatform) [115] 0 sampleTokenRing final sampleRingMoves sample_ring_fresh
      (by decide) (by decide) sample_moves_connect ran).2.2.2.1 active quiet⟩

end Synergy
