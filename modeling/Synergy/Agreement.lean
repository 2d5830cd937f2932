import Synergy.Activation
import Synergy.Lib.Chase

set_option autoImplicit false

namespace Synergy

open Around Chase

variable {n : Nat} [NeZero n]

-- What the tokens on their way to a daemon tell of the space, the first one first.
def TokenRing.signals (ring : TokenRing n) (spaceName : Bytes) (i : Fin n) : List Bool :=
  (ring.told spaceName i).filterMap fun passing => passing.token.signal spaceName

-- The daemons from M on: whether they have the space open, and what is on its way between them.
def TokenRing.chain (ring : TokenRing n) (spaceName : Bytes) (M : Fin n) : Chain where
  flag := fun d => ring.active spaceName (place M d)
  link := fun d => ring.signals spaceName (place M (d + 1))

-- The daemons that hold the space are M and the k behind it.
structure TokenRing.Stretch (spaceName : Bytes) (M : Fin n) (k : Nat) (ring : TokenRing n) : Prop where
  inside : k < n
  named : ring.Named
  holders : ∀ d < n, (ring.space spaceName (place M d)).isSome = true ↔ d ≤ k
  once : ∀ i, ∀ passing ∈ ring.told spaceName i, passing.token.ttl = -1

omit [NeZero n] in
theorem signals_append (spaceName : Bytes) (first second : List (Passing n)) :
    (first ++ second).filterMap (fun passing => passing.token.signal spaceName) =
      first.filterMap (fun passing => passing.token.signal spaceName) ++
        second.filterMap (fun passing => passing.token.signal spaceName) := List.filterMap_append

theorem first_place (M : Fin n) (k d : Nat) (inside : k < n) (below : d < k) : place M (d + 1) = M + 1 ↔ d = 0 := by
  constructor
  · intro same
    have first : place M (d + 1) = place M 1 := by rw [same, place_succ M 0, place_zero]
    have one := place_injective M (d + 1) 1 (by omega) (by omega) first
    omega
  · intro zero
    rw [zero, place_succ, place_zero]

omit [NeZero n] in
theorem active_some (ring : TokenRing n) (spaceName : Bytes) (i : Fin n) (element : TsdElement)
    (found : ring.space spaceName i = some element) : ring.active spaceName i = element.isActivated := by
  rw [TokenRing.active, found]

omit [NeZero n] in
theorem frame_active (ring next : TokenRing n) (i : Fin n) (spaceName : Bytes) (frame : ring.Frame next i) (j : Fin n) (other : j ≠ i) :
    next.active spaceName j = ring.active spaceName j := by
  rw [TokenRing.active, TokenRing.active, frame_spaces ring next i spaceName frame j other]

theorem stretch_kept (spaceName : Bytes) (M : Fin n) (k : Nat) (ring next : TokenRing n) (i : Fin n)
    (stretch : ring.Stretch spaceName M k) (frame : ring.Frame next i)
    (held : (next.space spaceName i).isSome = (ring.space spaceName i).isSome)
    (fresh : ∀ j, ∀ passing ∈ next.told spaceName j, passing.token.ttl = -1) : next.Stretch spaceName M k where
  inside := stretch.inside
  named := frame.named stretch.named
  holders := by
    intro d inside
    by_cases here : place M d = i
    · rw [here, held, ← here]
      exact stretch.holders d inside
    · rw [frame_spaces ring next i spaceName frame _ here]
      exact stretch.holders d inside
  once := fresh

theorem turned_agree (spaceName : Bytes) (M : Fin n) (k : Nat) (ring next : TokenRing n) (value : Bool) (within : k < n)
    (frame : ring.Frame next M) (before : ring.active spaceName M = !value) (after : next.active spaceName M = value)
    (links : ∀ d < k, next.signals spaceName (place M (d + 1)) =
      ring.signals spaceName (place M (d + 1)) ++ if d = 0 then [value] else []) :
    Agree k ((ring.chain spaceName M).turn value) (next.chain spaceName M) := by
  refine turn_agree k _ _ value ?_ ?_ (fun d positive inside => ?_) links
  · exact (congrArg _ (place_zero M)).trans before
  · exact (congrArg _ (place_zero M)).trans after
  · exact frame_active ring next M spaceName frame _ (place_ne_start M d positive (by omega))

theorem kept_agree (spaceName : Bytes) (M : Fin n) (k : Nat) (ring next : TokenRing n) (i : Fin n) (frame : ring.Frame next i)
    (here : next.active spaceName i = ring.active spaceName i)
    (links : ∀ d < k, next.signals spaceName (place M (d + 1)) = ring.signals spaceName (place M (d + 1))) :
    Agree k (ring.chain spaceName M) (next.chain spaceName M) := by
  refine ⟨fun d inside => ?_, links⟩
  by_cases there : place M d = i
  · exact (congrArg _ there).trans (here.trans (congrArg _ there.symm))
  · exact frame_active ring next i spaceName frame _ there

-- What a move can do to the daemons that hold the space, seen as a row of flags and links.
inductive Stirs (k : Nat) (chain next : Chain) : Prop where
  | nothing (agree : Agree k chain next)
  | turns (value : Bool) (agree : Agree k (chain.turn value) next)
  | takes (d : Nat) (inside : d < k) (agree : Agree k (chain.take d) next)

theorem stirs_settles (k : Nat) (chain next : Chain) (stirs : Stirs k chain next) (settles : Settles k chain) : Settles k next := by
  cases stirs with
  | nothing agree => exact settles_agree k chain next agree settles
  | turns value agree => exact settles_agree k _ next agree (settles_turn k chain value settles)
  | takes d inside agree => exact settles_agree k _ next agree (settles_take k chain d inside settles)

omit [NeZero n] in
theorem told_signals (spaceName : Bytes) (ring next : TokenRing n) (j : Fin n) (added : List (Passing n))
    (told : next.told spaceName j = ring.told spaceName j ++ added) :
    next.signals spaceName j = ring.signals spaceName j ++ added.filterMap fun passing => passing.token.signal spaceName := by
  rw [TokenRing.signals, told, signals_append, TokenRing.signals]

theorem decomission_tells (endpoint spaceName : Bytes) (clean : NulFree spaceName) :
    (decomissionToken endpoint spaceName).signal spaceName = some false := by
  have named : blockString (decomissionToken endpoint spaceName).buf1 = .ok spaceName := activation_named endpoint spaceName clean
  rw [signal_of_space spaceName _ named]
  rfl

-- A TsConnect that opens the space, from its first one on.
def Arrival.Opens (arrival : Arrival) (spaceName : Bytes) : Prop :=
  arrival.ts.tsname.chars = spaceName ∧ (arrival.call = .tsOpen tsModeMaster ∨ arrival.call = .tsOpen tsModeClient)

-- Requests about the space go to M.
def Master (spaceName : Bytes) (M : Fin n) (i : Fin n) (arrival : Arrival) : Prop :=
  arrival.call.signals ∧ (arrival.ts.tsname.chars = spaceName → i = M)

theorem request_stretch (env : Fin n → Platform) (spaceName : Bytes) (M : Fin n) (k : Nat) (ring next : TokenRing n) (i : Fin n)
    (arrival : Arrival) (stretch : ring.Stretch spaceName M k) (master : Master spaceName M i arrival)
    (moved : ring.step env (arrival.move i) = some next) :
    next.Stretch spaceName M k ∧ Stirs k (ring.chain spaceName M) (next.chain spaceName M) := by
  obtain ⟨frame, _, tokens, requested, told⟩ := hears_request env ring next i arrival spaceName stretch.named master.1 moved
  -- what is on its way to the places 1 to k, and how the space is held, after one telling of the daemon
  have signals : ∀ d < k, next.signals spaceName (place M (d + 1)) = ring.signals spaceName (place M (d + 1)) ++
      if place M (d + 1) = i + 1 then tokens.filterMap fun tk => tk.signal spaceName else [] := by
    intro d _
    rw [told_signals spaceName ring next _ _ (told _)]
    split
    · rw [List.filterMap_map]
      rfl
    · rfl
  have stretched : (∀ tk ∈ tokens, tk.ttl = -1) → ((next.space spaceName i).isSome = (ring.space spaceName i).isSome) →
      next.Stretch spaceName M k := by
    intro fresh held
    refine stretch_kept spaceName M k ring next i stretch frame held fun j passing member => ?_
    rw [told j] at member
    rcases List.mem_append.mp member with old | new
    · exact stretch.once j passing old
    · split at new
      · obtain ⟨tk, inTokens, same⟩ := List.mem_map.mp new
        rw [← same]
        exact fresh tk inTokens
      · cases new
  have silent : tokens = [] → next.active spaceName i = ring.active spaceName i →
      Stirs k (ring.chain spaceName M) (next.chain spaceName M) := by
    intro none_ same
    refine Stirs.nothing (kept_agree spaceName M k ring next i frame same fun d inside => ?_)
    rw [signals d inside, none_, List.filterMap_nil, ite_self, List.append_nil]
  have turned : ∀ value tk, i = M → tokens = [tk] → tk.signal spaceName = some value → ring.active spaceName M = (!value) →
      next.active spaceName M = value → Stirs k (ring.chain spaceName M) (next.chain spaceName M) := by
    intro value tk atM one tells before after
    subst atM
    refine Stirs.turns value (turned_agree spaceName i k ring next value stretch.inside frame before after fun d inside => ?_)
    rw [signals d inside, one, List.filterMap_cons_some tells, List.filterMap_nil]
    by_cases start : d = 0
    · rw [if_pos start, if_pos ((first_place i k d stretch.inside inside).mpr start)]
    · rw [if_neg start, if_neg fun same => start ((first_place i k d stretch.inside inside).mp same)]
  have oldActive := active_some ring spaceName i
  have newActive := active_some next spaceName i
  have named := stretch.named i spaceName
  generalize old : ring.space spaceName i = space at requested stretched oldActive
  generalize new : next.space spaceName i = left at requested stretched newActive
  cases requested with
  | untouched elsewhere =>
      refine ⟨stretched (by simp) rfl, silent rfl ?_⟩
      rw [TokenRing.active, TokenRing.active, old, new]
  | connected mode before after tokens here asked effect =>
      have atM := master.2 here
      have active := newActive after rfl
      rw [effect.active, ← oldActive before rfl] at active
      by_cases opens : before.opens mode = true ∧ before.isActivated = false
      · have sent := effect.sent
        rw [if_pos opens, named before old] at sent
        refine ⟨stretched (fun tk member => ?_) rfl, ?_⟩
        · rw [sent, List.mem_singleton] at member
          rw [member]
          rfl
        · refine turned true _ atM sent (activation_tells _ spaceName (here ▸ arrival.ts.tsname.clean)) ?_ ?_
          · rw [← atM, oldActive before rfl, opens.2]
            rfl
          · rw [← atM, active, opens.1, Bool.or_true]
      · have sent := effect.sent
        rw [if_neg opens] at sent
        refine ⟨stretched (by simp [sent]) rfl, silent sent ?_⟩
        rw [active, oldActive before rfl]
        cases running : before.isActivated with
        | true => rw [Bool.true_or]
        | false =>
            cases asks : before.opens mode with
            | true => exact absurd ⟨asks, running⟩ opens
            | false => rfl
  | closed before after here asked open_ name tsMode shut direct =>
      have atM := master.2 here
      have sent : [decomissionToken (ring.daemons i).endpoint before.name] = [decomissionToken (ring.daemons i).endpoint spaceName] := by
        rw [named before old]
      refine ⟨stretched (fun tk member => ?_) rfl, ?_⟩
      · rw [List.mem_singleton.mp member]
        rfl
      · refine turned false _ atM sent (decomission_tells _ spaceName (here ▸ arrival.ts.tsname.clean)) ?_ ?_
        · rw [← atM, oldActive before rfl, open_]
          rfl
        · rw [← atM, newActive after rfl, shut]

theorem delivery_kept (spaceName : Bytes) (M : Fin n) (k : Nat) (ring next : TokenRing n) (i : Fin n) (passing : Passing n)
    (later : List (Passing n)) (tokens : List GenericToken) (stretch : ring.Stretch spaceName M k) (frame : ring.Frame next i)
    (waiting : ring.inbox i = passing :: later) (relayed : tokens ⊆ [passing.token])
    (told : ∀ j, next.told spaceName j = (if j = i then tellings spaceName later else ring.told spaceName j) ++
      if j = i + 1 then (tellsOf spaceName tokens).map fun tk => ⟨tk, passing.origin, passing.hops + 1⟩ else [])
    (held : (next.space spaceName i).isSome = (ring.space spaceName i).isSome) : next.Stretch spaceName M k := by
  have split := told_split spaceName ring i passing later waiting
  refine stretch_kept spaceName M k ring next i stretch frame held fun j other member => ?_
  rw [told j] at member
  rcases List.mem_append.mp member with old | new
  · split at old
    · refine stretch.once i other ?_
      rw [split]
      split
      · exact List.mem_cons_of_mem _ old
      · exact old
    · exact stretch.once j other old
  · split at new
    · obtain ⟨tk, inTokens, same⟩ := List.mem_map.mp new
      have tells := List.of_mem_filter inTokens
      have same' := List.mem_singleton.mp (relayed (List.mem_of_mem_filter inTokens))
      rw [← same, same']
      refine stretch.once i passing ?_
      rw [split, if_pos (same' ▸ tells)]
      exact List.mem_cons_self
    · cases new

theorem delivery_signals (spaceName : Bytes) (ring next : TokenRing n) (i origin : Fin n) (hops : Nat) (later : List (Passing n))
    (tokens : List GenericToken)
    (told : ∀ j, next.told spaceName j = (if j = i then tellings spaceName later else ring.told spaceName j) ++
      if j = i + 1 then (tellsOf spaceName tokens).map fun tk => ⟨tk, origin, hops⟩ else []) (j : Fin n) :
    next.signals spaceName j =
      (if j = i then (tellings spaceName later).filterMap fun passing => passing.token.signal spaceName else ring.signals spaceName j) ++
        if j = i + 1 then (tellsOf spaceName tokens).filterMap fun tk => tk.signal spaceName else [] := by
  rw [TokenRing.signals, told j, signals_append, TokenRing.signals]
  by_cases here : j = i
  · by_cases there : j = i + 1
    · rw [if_pos here, if_pos here, if_pos there, if_pos there, List.filterMap_map]
      rfl
    · rw [if_pos here, if_pos here, if_neg there, if_neg there, List.filterMap_nil]
  · by_cases there : j = i + 1
    · rw [if_neg here, if_neg here, if_pos there, if_pos there, List.filterMap_map]
      rfl
    · rw [if_neg here, if_neg here, if_neg there, if_neg there, List.filterMap_nil]

theorem taken_stirs (spaceName : Bytes) (M : Fin n) (k e : Nat) (ring next : TokenRing n) (tk : GenericToken) (value : Bool)
    (rest : List Bool) (tokens : List GenericToken) (within : e < n) (stretch : ring.Stretch spaceName M k)
    (frame : ring.Frame next (place M e)) (head : ring.signals spaceName (place M e) = value :: rest)
    (outcome : Told tk value (ring.space spaceName (place M e)) (next.space spaceName (place M e)) tokens)
    (signal : tk.signal spaceName = some value)
    (signals : ∀ j, next.signals spaceName j = (if j = place M e then rest else ring.signals spaceName j) ++
      if j = place M e + 1 then tokens.filterMap fun tk => tk.signal spaceName else []) :
    Stirs k (ring.chain spaceName M) (next.chain spaceName M) := by
  have inside := stretch.inside
  have held := stretch.holders e within
  have one : [tk].filterMap (fun tk => tk.signal spaceName) = [value] := by
    rw [List.filterMap_cons_some signal, List.filterMap_nil]
  have following : ∀ d < k, place M (d + 1) = place M e + 1 ↔ d = e := by
    intro d below
    rw [place_succ]
    constructor
    · intro same
      exact place_injective M d e (by omega) within (add_right_cancel same)
    · intro same
      rw [same]
  have arriving : ∀ d < k, place M (d + 1) = place M e ↔ d + 1 = e := by
    intro d below
    constructor
    · exact place_injective M (d + 1) e (by omega) within
    · intro same
      rw [same]
  have links : ∀ d < k, next.signals spaceName (place M (d + 1)) =
      (if d + 1 = e then rest else ring.signals spaceName (place M (d + 1))) ++
        if d = e then tokens.filterMap fun tk => tk.signal spaceName else [] := by
    intro d below
    rw [signals]
    simp only [following d below, arriving d below]
  have oldActive := active_some ring spaceName (place M e)
  have newActive := active_some next spaceName (place M e)
  have alike : next.space spaceName (place M e) = ring.space spaceName (place M e) →
      next.active spaceName (place M e) = ring.active spaceName (place M e) := fun same => by
    rw [TokenRing.active, TokenRing.active, same]
  generalize ring.space spaceName (place M e) = space at outcome held oldActive alike
  generalize next.space spaceName (place M e) = left at outcome newActive alike
  by_cases start : e = 0
  · subst start
    rw [place_zero] at frame oldActive newActive alike
    have passed : tokens.filterMap (fun tk => tk.signal spaceName) = [] →
        ∀ d < k, next.signals spaceName (place M (d + 1)) = ring.signals spaceName (place M (d + 1)) := by
      intro none_ d below
      rw [links d below, none_, ite_self, List.append_nil, if_neg (Nat.succ_ne_zero d)]
    cases outcome with
    | missing => exact absurd (held.mpr (Nat.zero_le k)) (by simp)
    | known element already => exact Stirs.nothing (kept_agree spaceName M k ring next M frame (alike rfl) (passed rfl))
    | turned before after turned active tsMode direct =>
        refine Stirs.turns value (turned_agree spaceName M k ring next value inside frame ((oldActive before rfl).trans turned)
          ((newActive after rfl).trans active) fun d below => ?_)
        rw [links d below, one, if_neg (Nat.succ_ne_zero d)]
  · obtain ⟨d, same⟩ : ∃ d, e = d + 1 := ⟨e - 1, by omega⟩
    subst same
    have others : ∀ x ≤ k, x ≠ d + 1 → next.active spaceName (place M x) = ring.active spaceName (place M x) := fun x below other =>
      frame_active ring next _ spaceName frame _ fun same => other (place_injective M x (d + 1) (by omega) within same)
    cases outcome with
    | missing =>
        have beyond : k < d + 1 := by
          by_contra below
          exact absurd (held.mpr (by omega)) (by simp)
        refine Stirs.nothing (kept_agree spaceName M k ring next _ frame (alike rfl) fun x below => ?_)
        rw [links x below, if_neg (by omega), if_neg (by omega), List.append_nil]
    | known element already =>
        have below : d + 1 ≤ k := held.mp rfl
        refine Stirs.takes d (by omega) (take_agree k d _ _ value rest head ((newActive element rfl).trans already) others fun x under => ?_)
        refine (links x under).trans ?_
        have known : (ring.chain spaceName M).flag (d + 1) = value := (oldActive element rfl).trans already
        rw [if_neg fun both : x = d + 1 ∧ (ring.chain spaceName M).flag (d + 1) ≠ value => both.2 known, List.filterMap_nil, ite_self]
        simp only [Nat.add_right_cancel_iff]
        rfl
    | turned before after turned active tsMode direct =>
        have below : d + 1 ≤ k := held.mp rfl
        refine Stirs.takes d (by omega) (take_agree k d _ _ value rest head ((newActive after rfl).trans active) others fun x under => ?_)
        refine (links x under).trans ?_
        have differs : (ring.chain spaceName M).flag (d + 1) ≠ value := by
          change ring.active spaceName (place M (d + 1)) ≠ value
          rw [oldActive before rfl, turned]
          simp
        rw [one]
        simp only [Nat.add_right_cancel_iff, differs, ne_eq, not_false_eq_true, and_true]
        rfl

theorem delivery_stretch (env : Fin n → Platform) (spaceName : Bytes) (M : Fin n) (k : Nat) (ring next : TokenRing n) (i : Fin n)
    (stray : UInt8) (stretch : ring.Stretch spaceName M k) (moved : ring.step env (.delivers i stray) = some next) :
    next.Stretch spaceName M k ∧ Stirs k (ring.chain spaceName M) (next.chain spaceName M) := by
  obtain ⟨passing, later, tokens, waiting, frame, _, took, told⟩ := delivers_token env ring next i stray stretch.named moved
  have split := told_split spaceName ring i passing later waiting
  have relayed := taken_relays _ _ _ _ took
  have kept := delivery_kept spaceName M k ring next i passing later tokens stretch frame waiting relayed (told spaceName)
  have signals := delivery_signals spaceName ring next i passing.origin (passing.hops + 1) later tokens (told spaceName)
  cases signal : passing.token.signal spaceName with
  | none =>
      obtain ⟨same, silent⟩ := silent_taken _ _ _ _ spaceName took signal
      rw [signal, if_neg (by simp)] at split
      have alike : next.space spaceName i = ring.space spaceName i := same
      refine ⟨kept (by rw [alike]), Stirs.nothing (kept_agree spaceName M k ring next i frame
        (by rw [TokenRing.active, TokenRing.active, alike]) fun d _ => ?_)⟩
      rw [signals, silent, List.filterMap_nil, ite_self, List.append_nil]
      split
      · rename_i here
        rw [here, TokenRing.signals, split]
      · rfl
  | some value =>
      rw [signal, if_pos (by simp)] at split
      have head : ring.signals spaceName i =
          value :: (tellings spaceName later).filterMap fun passing => passing.token.signal spaceName := by
        rw [TokenRing.signals, split]
        exact List.filterMap_cons_some signal
      have once := stretch.once i passing (split ▸ List.mem_cons_self)
      have outcome : Told passing.token value (ring.space spaceName i) (next.space spaceName i) tokens :=
        told_taken _ _ _ _ spaceName value took signal once
      have tells : tellsOf spaceName tokens = tokens := by
        refine List.filter_eq_self.mpr fun tk member => ?_
        rw [List.mem_singleton.mp (relayed member), signal]
        rfl
      rw [tells] at signals
      obtain ⟨e, within, position⟩ := place_surjective M i
      subst position
      refine ⟨kept ?_, taken_stirs spaceName M k e ring next passing.token value _ tokens within stretch frame head outcome signal signals⟩
      generalize ring.space spaceName (place M e) = space at outcome
      generalize next.space spaceName (place M e) = left at outcome
      cases outcome <;> rfl

def MasterCloses (spaceName : Bytes) (M : Fin n) (i : Fin n) (arrival : Arrival) : Prop :=
  arrival.call.signals ∧ (arrival.ts.tsname.chars = spaceName → i = M ∧ arrival.call = .tsClose)

-- The first TsConnect M gets for the space opens it: before it there are no requests about the space but TsTerm.
def FirstOpens (spaceName : Bytes) (M : Fin n) (moves : List (Move n)) : Prop :=
  ∃ (before : List (Move n)) (arrival : Arrival) (after : List (Move n)),
    moves = before ++ arrival.move M :: after ∧ arrival.Opens spaceName ∧ ∀ move ∈ before, move.Calls (MasterCloses spaceName M)

-- Nothing has happened to the space yet.
structure Dormant (spaceName : Bytes) (M : Fin n) (k : Nat) (start ring : TokenRing n) : Prop where
  stretch : ring.Stretch spaceName M k
  quiet : ring.Quiet spaceName
  spaces : ∀ i, ring.space spaceName i = start.space spaceName i

theorem move_stretch (env : Fin n → Platform) (spaceName : Bytes) (M : Fin n) (k : Nat) (ring next : TokenRing n) (move : Move n)
    (stretch : ring.Stretch spaceName M k) (master : move.Calls (Master spaceName M)) (moved : ring.step env move = some next) :
    next.Stretch spaceName M k ∧ Stirs k (ring.chain spaceName M) (next.chain spaceName M) := by
  cases master with
  | asks i arrival permitted => exact request_stretch env spaceName M k ring next i arrival stretch permitted moved
  | delivers i stray => exact delivery_stretch env spaceName M k ring next i stray stretch moved

theorem dormant_move (env : Fin n → Platform) (spaceName : Bytes) (M : Fin n) (k : Nat) (start ring next : TokenRing n) (move : Move n)
    (closed : start.active spaceName M = false) (dormant : Dormant spaceName M k start ring)
    (before : move.Calls (MasterCloses spaceName M)) (moved : ring.step env move = some next) : Dormant spaceName M k start next := by
  cases before with
  | delivers i stray =>
      have kept := (delivery_stretch env spaceName M k ring next i stray dormant.stretch moved).1
      obtain ⟨passing, later, tokens, waiting, frame, _, took, told⟩ := delivers_token env ring next i stray dormant.stretch.named moved
      have split := told_split spaceName ring i passing later waiting
      rw [dormant.quiet i] at split
      cases signal : passing.token.signal spaceName with
      | some value =>
          rw [signal, if_pos (by simp)] at split
          cases split
      | none =>
          rw [signal, if_neg (by simp)] at split
          obtain ⟨same, silent⟩ := silent_taken _ _ _ _ spaceName took signal
          refine ⟨kept, fun j => ?_, fun j => ?_⟩
          · rw [told spaceName j, silent, List.map_nil, ite_self, List.append_nil, dormant.quiet j, ← split, ite_self]
          · refine Eq.trans ?_ (dormant.spaces j)
            by_cases here : j = i
            · rw [here]
              exact same
            · exact frame_spaces ring next i spaceName frame j here
  | asks i arrival permitted =>
      have kept := (request_stretch env spaceName M k ring next i arrival dormant.stretch
        ⟨permitted.1, fun here => (permitted.2 here).1⟩ moved).1
      obtain ⟨frame, _, tokens, requested, told⟩ := hears_request env ring next i arrival spaceName dormant.stretch.named permitted.1 moved
      have nothing : next.space spaceName i = ring.space spaceName i ∧ tokens = [] := by
        have spaces := dormant.spaces
        generalize old : ring.space spaceName i = space at requested
        generalize new : next.space spaceName i = left at requested
        cases requested with
        | untouched elsewhere => exact ⟨rfl, rfl⟩
        | connected mode before after tokens here asked effect =>
            rw [(permitted.2 here).2] at asked
            cases asked
        | closed before after here asked open_ =>
            rw [(permitted.2 here).1, spaces M] at old
            rw [active_some start spaceName M before old, open_] at closed
            cases closed
      refine ⟨kept, fun j => ?_, fun j => ?_⟩
      · rw [told j, nothing.2, List.map_nil, ite_self, List.append_nil]
        exact dormant.quiet j
      · refine Eq.trans ?_ (dormant.spaces j)
        by_cases here : j = i
        · rw [here]
          exact nothing.1
        · exact frame_spaces ring next i spaceName frame j here

theorem dormant_run (env : Fin n → Platform) (spaceName : Bytes) (M : Fin n) (k : Nat) (start ring : TokenRing n) (moves : List (Move n))
    (closed : start.active spaceName M = false) (stretch : start.Stretch spaceName M k) (quiet : start.Quiet spaceName)
    (before : ∀ move ∈ moves, move.Calls (MasterCloses spaceName M)) (ran : Runs.run (TokenRing.step env) start moves = some ring) :
    Dormant spaceName M k start ring :=
  Runs.run_guarded_invariant (TokenRing.step env) (fun _ move => move.Calls (MasterCloses spaceName M)) (Dormant spaceName M k start)
    (fun ring move next dormant permitted moved => dormant_move env spaceName M k start ring next move closed dormant permitted moved)
    start ring moves ⟨stretch, quiet, fun _ => rfl⟩ (Runs.meets_of_forall _ _ _ _ fun move member _ => before move member) ran

theorem settles_run (env : Fin n → Platform) (spaceName : Bytes) (M : Fin n) (k : Nat) (start final : TokenRing n) (moves : List (Move n))
    (stretch : start.Stretch spaceName M k) (settles : Settles k (start.chain spaceName M))
    (master : ∀ move ∈ moves, move.Calls (Master spaceName M)) (ran : Runs.run (TokenRing.step env) start moves = some final) :
    final.Stretch spaceName M k ∧ Settles k (final.chain spaceName M) :=
  Runs.run_guarded_invariant (TokenRing.step env) (fun _ move => move.Calls (Master spaceName M))
    (fun ring => ring.Stretch spaceName M k ∧ Settles k (ring.chain spaceName M))
    (fun ring move next inv permitted moved => by
      obtain ⟨kept, stirs⟩ := move_stretch env spaceName M k ring next move inv.1 permitted moved
      exact ⟨kept, stirs_settles k _ _ stirs inv.2⟩)
    start final moves ⟨stretch, settles⟩ (Runs.meets_of_forall _ _ _ _ fun move member _ => master move member) ran

theorem quiet_links (spaceName : Bytes) (M : Fin n) (ring : TokenRing n) (quiet : ring.Quiet spaceName) (d : Nat) :
    (ring.chain spaceName M).link d = [] := by
  change (ring.told spaceName (place M (d + 1))).filterMap _ = []
  rw [quiet]
  rfl

theorem opening_settles (env : Fin n → Platform) (spaceName : Bytes) (M : Fin n) (k : Nat) (start ring next : TokenRing n)
    (arrival : Arrival) (dormant : Dormant spaceName M k start ring) (opens : arrival.Opens spaceName)
    (masters : ∃ element, start.space spaceName M = some element ∧ element.tsMode = .master) (closed : start.active spaceName M = false)
    (ordered : ∀ d e, d < e → e ≤ k → start.active spaceName (place M d) = true → start.active spaceName (place M e) = true)
    (moved : ring.step env (arrival.move M) = some next) : Settles k (next.chain spaceName M) := by
  obtain ⟨here, call⟩ := opens
  have signals : arrival.call.signals := by
    rcases call with call | call <;> rw [call] <;> trivial
  have active : ∀ d, (ring.chain spaceName M).flag d = start.active spaceName (place M d) := fun d => by
    change ring.active spaceName (place M d) = _
    rw [TokenRing.active, TokenRing.active, dormant.spaces]
  obtain ⟨frame, _, tokens, requested, told⟩ := hears_request env ring next M arrival spaceName dormant.stretch.named signals moved
  have turned : Agree k ((ring.chain spaceName M).turn true) (next.chain spaceName M) := by
    obtain ⟨element, found, mode⟩ := masters
    have there := (dormant.spaces M).trans found
    have shut : element.isActivated = false := (active_some start spaceName M element found).symm.trans closed
    have named := dormant.stretch.named M spaceName element there
    have newActive := active_some next spaceName M
    rw [there] at requested
    generalize next.space spaceName M = left at requested newActive
    cases requested with
    | untouched _ elsewhere =>
        have asked := (elsewhere here element rfl).1
        rcases call with call | call <;> rw [call] at asked <;> cases asked
    | closed before after here asked open_ =>
        rw [shut] at open_
        cases open_
    | connected word before after tokens here asked effect =>
        have takes : element.opens word = true := by
          rcases call with call | call <;> rw [call] at asked <;> cases asked <;> simp [TsdElement.opens, mode]
        have sent := effect.sent
        rw [if_pos ⟨takes, shut⟩, named] at sent
        have nowOpen := newActive after rfl
        rw [effect.active, takes, Bool.or_true] at nowOpen
        refine turned_agree spaceName M k ring next true dormant.stretch.inside frame ?_ nowOpen fun d below => ?_
        · rw [active_some ring spaceName M element there, shut]
          rfl
        · rw [told_signals spaceName ring next _ _ (told _), sent]
          by_cases first : d = 0
          · rw [if_pos first, if_pos ((first_place M k d dormant.stretch.inside below).mpr first), List.map_cons, List.map_nil]
            have tells := activation_tells (ring.daemons M).endpoint spaceName (here ▸ arrival.ts.tsname.clean)
            rw [List.filterMap_cons, tells]
            rfl
          · rw [if_neg first, if_neg fun same => first ((first_place M k d dormant.stretch.inside below).mp same)]
            rfl
  refine settles_agree k _ _ turned ?_
  have empty : ∀ d < k, (ring.chain spaceName M).link d = [] := fun d _ => quiet_links spaceName M ring dormant.quiet d
  have down : start.active spaceName (place M 0) = false := by
    rw [place_zero]
    exact closed
  by_cases someUp : ∃ d, d ≤ k ∧ start.active spaceName (place M d) = true
  · obtain ⟨⟨within, up⟩, lowest⟩ := Nat.find_spec someUp, fun d => Nat.find_min (m := d) someUp
    obtain ⟨g, same⟩ : ∃ g, Nat.find someUp = g + 1 := by
      cases first : Nat.find someUp with
      | zero =>
          rw [first, down] at up
          cases up
      | succ g => exact ⟨g, rfl⟩
    rw [same] at within up lowest
    refine Or.inr ⟨g, opening_pending k g _ (by omega) (fun d below => ?_) (fun d above inside => ?_) empty⟩
    · rw [active]
      by_contra raised
      exact lowest d (by omega) ⟨by omega, by simpa using raised⟩
    · rw [active]
      by_cases border : d = g + 1
      · rw [border]
        exact up
      · exact ordered (g + 1) d (by omega) inside up
  · have allDown : ∀ d ≤ k, (ring.chain spaceName M).flag d = false := fun d inside => by
      rw [active]
      by_contra raised
      exact someUp ⟨d, inside, by simpa using raised⟩
    exact settles_turn k _ true (Or.inl (alike_follows k _ (fun d inside => by
      rw [allDown d inside, allDown 0 (Nat.zero_le k)]) empty))

-- All requests are at M, and the daemons that hold the space are M and the k behind it, none that starts closed behind one
-- that starts open.
theorem daemons_agree (env : Fin n → Platform) (spaceName : Bytes) (M : Fin n) (k : Nat) (start final : TokenRing n) (moves : List (Move n))
    (stretch : start.Stretch spaceName M k) (quiet : start.Quiet spaceName)
    (masters : ∃ element, start.space spaceName M = some element ∧ element.tsMode = .master)
    (ordered : ∀ d e, d < e → e ≤ k → start.active spaceName (place M d) = true → start.active spaceName (place M e) = true)
    (opened : start.active spaceName M = true ∨ (∀ i, start.active spaceName i = false) ∨ FirstOpens spaceName M moves)
    (master : ∀ move ∈ moves, move.Calls (Master spaceName M)) (ran : Runs.run (TokenRing.step env) start moves = some final)
    (silent : final.Quiet spaceName) (i : Fin n) (element : TsdElement) (found : final.space spaceName i = some element) :
    element.isActivated = final.active spaceName M := by
  have settled_ : final.Stretch spaceName M k ∧ Settles k (final.chain spaceName M) := by
    have empty : ∀ d < k, (start.chain spaceName M).link d = [] := fun d _ => quiet_links spaceName M start quiet d
    by_cases alike : ∀ d ≤ k, (start.chain spaceName M).flag d = (start.chain spaceName M).flag 0
    · exact settles_run env spaceName M k start final moves stretch (Or.inl (alike_follows k _ alike empty)) master ran
    · have raised : ¬ start.active spaceName M = true := by
        intro up
        refine alike fun d inside => ?_
        have first : start.active spaceName (place M 0) = true := by
          rw [place_zero]
          exact up
        cases d with
        | zero => rfl
        | succ d => exact (ordered 0 (d + 1) (Nat.succ_pos d) inside first).trans first.symm
      have notDown : ¬ ∀ i, start.active spaceName i = false := fun down => alike fun d _ => (down _).trans (down _).symm
      obtain ⟨before, arrival, after, split, opens, only⟩ := (opened.resolve_left raised).resolve_left notDown
      subst split
      rw [Runs.run_append] at ran
      obtain ⟨ring, first, ran⟩ := Option.bind_eq_some_iff.mp ran
      obtain ⟨next, moved, ran⟩ := Runs.run_cons_some _ _ _ _ _ ran
      have closed : start.active spaceName M = false := by simpa using raised
      have dormant := dormant_run env spaceName M k start ring before closed stretch quiet only first
      have settles := opening_settles env spaceName M k start ring next arrival dormant opens masters closed ordered moved
      have kept := (move_stretch env spaceName M k ring next _ dormant.stretch (master _ (by simp)) moved).1
      exact settles_run env spaceName M k next final after kept settles (fun move member => master move (by simp [member])) ran
  obtain ⟨kept, settles⟩ := settled_
  obtain ⟨d, within, position⟩ := place_surjective M i
  subst position
  have inside : d ≤ k := (kept.holders d within).mp (by rw [found]; rfl)
  have same := settled k _ settles (fun d _ => quiet_links spaceName M final silent d) d inside
  have flag : final.active spaceName (place M d) = final.active spaceName (place M 0) := same
  rw [place_zero, active_some final spaceName _ element found] at flag
  exact flag

def sampleClose (client : Identity) : Arrival := { sampleConnect client 0 with call := .tsClose }

-- Two daemons that hold a space: the master in token mode, the one behind it in direct mode.
def sampleMixedRing : TokenRing 2 := TokenRing.start (fun i => if i.val = 0 then [65] else [66]) (fun _ => 1) fun i =>
  [{ name := [115], directEndpoint := List.replicate 256 0, tsMode := if i.val = 0 then .master else .worker,
     tsdMode := if i.val = 0 then .token else .direct }]

def sampleMixedMoves : List (Move 2) :=
  [(sampleConnect sampleClient 0).move (Fin.last 1).rev, (sampleClose sampleClient).move (Fin.last 1).rev, .delivers (Fin.last 1) 0,
    .delivers (Fin.last 1) 0, .delivers (Fin.last 1).rev 0]

theorem sample_mixed_stretch : sampleMixedRing.Stretch [115] 0 1 where
  inside := by decide
  named := fun i => created_named _ _ _
  holders := by
    intro d inside
    match d with
    | 0 => exact ⟨fun _ => by decide, fun _ => rfl⟩
    | 1 => exact ⟨fun _ => by decide, fun _ => rfl⟩
  once := fun i passing member => by cases member

theorem sample_mixed_ordered (d e : Nat) (before : d < e) (inside : e ≤ 1)
    (up : sampleMixedRing.active [115] (place 0 d) = true) : sampleMixedRing.active [115] (place 0 e) = true := by
  have first : d = 0 := by omega
  rw [first] at up
  cases up

theorem sample_mixed_master : ∀ move ∈ sampleMixedMoves, move.Calls (Master [115] 0) := by
  intro move member
  simp only [sampleMixedMoves, List.mem_cons, List.not_mem_nil, or_false] at member
  rcases member with same | same | same | same | same <;> subst same
  · exact Move.Calls.asks 0 _ ⟨trivial, fun _ => rfl⟩
  · exact Move.Calls.asks 0 _ ⟨trivial, fun _ => rfl⟩
  · exact Move.Calls.delivers 1 0
  · exact Move.Calls.delivers 1 0
  · exact Move.Calls.delivers 0 0

set_option maxRecDepth 8000 in
theorem daemons_agree_mixed : ∃ final, Runs.run (TokenRing.step fun _ => samplePlatform) sampleMixedRing sampleMixedMoves = some final ∧
    ∀ i element, final.space [115] i = some element → element.isActivated = final.active [115] 0 := by
  have reached : ∃ final, Runs.run (TokenRing.step fun _ => samplePlatform) sampleMixedRing sampleMixedMoves = some final ∧
      final.Quiet [115] := ⟨_, rfl, fun i => match i with | 0 => rfl | 1 => rfl⟩
  obtain ⟨final, ran, quiet⟩ := reached
  exact ⟨final, ran, daemons_agree (fun _ => samplePlatform) [115] 0 1 sampleMixedRing final sampleMixedMoves sample_mixed_stretch
    (fun _ => rfl) ⟨_, rfl, rfl⟩ sample_mixed_ordered
    (Or.inr (Or.inr ⟨[], sampleConnect sampleClient 0, _, rfl, ⟨rfl, Or.inl rfl⟩, by simp⟩)) sample_mixed_master ran quiet⟩

-- Three daemons, of which the one between the master and the other holder does not hold the space.
def sampleGapRing : TokenRing 3 := TokenRing.start (fun i => [65 + UInt8.ofNat i.val]) (fun _ => 1) fun i =>
  if i.val = 1 then []
  else [{ name := [115], directEndpoint := List.replicate 256 0, tsMode := if i.val = 0 then .master else .worker, tsdMode := .token }]

def sampleFirst : Fin 3 := (Fin.last 2).rev

def sampleMiddle : Fin 3 := Fin.castSucc (Fin.last 1)

def sampleGapMoves : List (Move 3) :=
  [(sampleConnect sampleClient 0).move sampleFirst, .delivers sampleMiddle 0, .delivers (Fin.last 2) 0, .delivers sampleFirst 0,
    (sampleClose sampleClient).move sampleFirst, .delivers sampleMiddle 0]

set_option maxRecDepth 8000 in
-- The daemon in between passes the activation on and drops the termination.
theorem space_stays_open : (∀ move ∈ sampleGapMoves, move.Calls (Master [115] 0)) ∧
    ∃ final, Runs.run (TokenRing.step fun _ => samplePlatform) sampleGapRing sampleGapMoves = some final ∧ final.Quiet [115] ∧
      final.active [115] 0 = false ∧ ∃ element, final.space [115] 2 = some element ∧ element.isActivated = true := by
  refine ⟨fun move member => ?_, _, rfl, fun i => match i with | 0 => rfl | 1 => rfl | 2 => rfl, rfl, _, rfl, rfl⟩
  simp only [sampleGapMoves, List.mem_cons, List.not_mem_nil, or_false] at member
  rcases member with same | same | same | same | same | same <;> subst same
  · exact Move.Calls.asks 0 _ ⟨trivial, fun _ => rfl⟩
  · exact Move.Calls.delivers 1 0
  · exact Move.Calls.delivers 2 0
  · exact Move.Calls.delivers 0 0
  · exact Move.Calls.asks 0 _ ⟨trivial, fun _ => rfl⟩
  · exact Move.Calls.delivers 1 0

end Synergy
