import Synergy.Origins

set_option autoImplicit false

namespace Synergy

-- What a daemon sends off itself: activations, terminations and announcements without a limit, and replications.
def GenericToken.Originated (tk : GenericToken) : Prop :=
  ((tk.id = 0 ∨ tk.id = 1 ∨ tk.id = 2) ∧ tk.ttl = -1) ∨ tk.id = 3

theorem handler_originates (env : Platform) (self : Tsd) (isLocal : Bool) (ticket : Nat) (input : Input) (handled : Handled)
    (done : handler env self isLocal ticket input = .ok handled) : ∀ tk ∈ tokensIn handled.sent, tk.Originated := by
  intro tk member
  obtain ⟨action, _, origin⟩ := handler_origin env self isLocal ticket input handled done tk member
  cases origin with
  | activation spaceName => exact Or.inl ⟨Or.inl rfl, rfl⟩
  | termination spaceName => exact Or.inl ⟨Or.inr (Or.inl rfl), rfl⟩
  | named spaceName name buf1 built => exact Or.inl ⟨Or.inr (Or.inr rfl), rfl⟩
  | anonymous spaceName anonId buf1 built => exact Or.inl ⟨Or.inr (Or.inr rfl), rfl⟩
  | replication action spaceName anonId buf1 adds built => exact Or.inr rfl

variable {n : Nat} [NeZero n]

-- How often a token may be passed on: once round the ring, or as often as its ttl says where that is more.
def GenericToken.limit (n : Nat) (tk : GenericToken) : Nat := max n tk.ttl.toNat

def TokenRing.Bounded (ring : TokenRing n) : Prop := ∀ i, ∀ passing ∈ ring.inbox i, passing.hops ≤ passing.token.limit n

-- A daemon does not send the token on: an activation of a space it has open, a termination of one it does not have open,
-- never an announcement.
def GenericToken.Ends (self : Tsd) (tk : GenericToken) : Prop :=
  (tk.id = 0 → ∃ spaceName element, blockString tk.buf1 = .ok spaceName ∧ self.spaceTable spaceName = some element ∧
    element.isActivated = true) ∧
  (tk.id = 1 → ∀ spaceName element, blockString tk.buf1 = .ok spaceName → self.spaceTable spaceName = some element →
    element.isActivated = false) ∧
  tk.id ≠ 2

-- A token that has gone round once ends with the daemon that takes it next.
def TokenRing.EndsRound (ring : TokenRing n) : Move n → Prop
  | .hears _ _ _ => True
  | .delivers i _ => ∀ passing later, ring.inbox i = passing :: later → passing.hops = n → passing.token.Ends (ring.daemons i)

structure Sourced (ring : TokenRing n) : Prop where
  originated : ∀ i, ∀ passing ∈ ring.inbox i, passing.token.Originated
  replicated : ∀ i, ∀ passing ∈ ring.inbox i, passing.token.id = 3 → passing.hops = 1

theorem taken_ends (self next : Tsd) (tk : GenericToken) (tokens : List GenericToken) (took : Taken self tk next tokens)
    (endless : tk.ttl = -1) (known : tk.id = 0 ∨ tk.id = 1 ∨ tk.id = 2) : tokens = [] ↔ tk.Ends self := by
  have relayed : tokensIn (relay tk) ≠ [] := by
    rw [relay_tokens, endless, if_pos (Or.inr rfl)]
    exact List.cons_ne_nil _ _
  cases took with
  | unknown spaceName id named missing =>
      refine ⟨fun none_ => absurd none_ relayed, fun ends => ?_⟩
      obtain ⟨other, element, string, there, _⟩ := ends.1 id
      rw [Except.ok.inj (string.symm.trans named), missing] at there
      cases there
  | duplicate spaceName element id named there active =>
      refine ⟨fun _ => ⟨fun _ => ⟨spaceName, element, named, there, active⟩, fun one => ?_, fun two => ?_⟩, fun _ => rfl⟩
      · rw [id] at one
        cases one
      · rw [id] at two
        cases two
  | activates spaceName element waiting id named there inactive room left =>
      refine ⟨fun none_ => absurd none_ relayed, fun ends => ?_⟩
      obtain ⟨other, same, string, found, active⟩ := ends.1 id
      rw [Except.ok.inj (string.symm.trans named), there] at found
      cases found
      rw [inactive] at active
      cases active
  | dropped spaceName id named missing =>
      refine ⟨fun _ => ⟨fun zero => ?_, fun _ other element string there => ?_, fun two => ?_⟩, fun _ => rfl⟩
      · rw [id] at zero
        cases zero
      · rw [Except.ok.inj (string.symm.trans named), missing] at there
        cases there
      · rw [id] at two
        cases two
  | decomissions spaceName element id named there =>
      rw [endless]
      constructor
      · intro none_
        refine ⟨fun zero => ?_, fun _ other same string found => ?_, fun two => ?_⟩
        · rw [id] at zero
          cases zero
        · rw [Except.ok.inj (string.symm.trans named), there] at found
          cases found
          by_contra active
          rw [if_pos (Or.inr ⟨rfl, by simpa using active⟩)] at none_
          cases none_
        · rw [id] at two
          cases two
      · intro ends
        have inactive := ends.2.1 id spaceName element named there
        rw [if_neg (by simp [inactive])]
  | matched id => exact ⟨fun none_ => absurd none_ relayed, fun ends => absurd id ends.2.2⟩
  | other id =>
      rcases known with zero | one | two
      · exact absurd zero id.1
      · exact absurd one id.2.1
      · exact absurd two id.2.2.1

theorem pass_on_cases (inbox : Fin n → List (Passing n)) (i origin : Fin n) (hops : Nat) (sent : List Out) (j : Fin n)
    (passing : Passing n) (member : passing ∈ passOn inbox i origin hops sent j) :
    passing ∈ inbox j ∨ ∃ tk ∈ tokensIn sent, passing = ⟨tk, origin, hops⟩ := by
  unfold passOn at member
  by_cases here : j = i + 1
  · subst here
    rw [Function.update_self] at member
    rcases List.mem_append.mp member with old | new
    · exact Or.inl old
    · obtain ⟨tk, there, same⟩ := List.mem_map.mp new
      exact Or.inr ⟨tk, there, same.symm⟩
  · rw [Function.update_of_ne here] at member
    exact Or.inl member

omit [NeZero n] in
theorem inbox_later (inbox : Fin n → List (Passing n)) (i : Fin n) (passing : Passing n) (later : List (Passing n))
    (waiting : inbox i = passing :: later) (j : Fin n) (other : Passing n) (member : other ∈ Function.update inbox i later j) :
    other ∈ inbox j := by
  by_cases here : j = i
  · subst here
    rw [Function.update_self] at member
    rw [waiting]
    exact List.mem_cons_of_mem _ member
  · rwa [Function.update_of_ne here] at member

theorem limit_positive (tk : GenericToken) : 1 ≤ tk.limit n := by
  have positive := NeZero.pos n
  unfold GenericToken.limit
  omega

theorem delivered (env : Fin n → Platform) (ring next : TokenRing n) (i : Fin n) (stray : UInt8)
    (moved : ring.step env (.delivers i stray) = some next) :
    ∃ passing later tokens, ring.inbox i = passing :: later ∧ Taken (ring.daemons i) passing.token (next.daemons i) tokens ∧
      ∃ sent, tokensIn sent = tokens ∧
        next.inbox = passOn (Function.update ring.inbox i later) i passing.origin (passing.hops + 1) sent := by
  unfold TokenRing.step at moved
  dsimp only at moved
  split at moved
  · cases moved
  · rename_i passing later waiting
    split at moved
    · cases moved
    · rename_i self sent done
      cases moved
      refine ⟨passing, later, tokensIn sent, waiting, ?_, sent, rfl, rfl⟩
      simp only [Function.update_self]
      exact token_handler_taken (env i) stray (ring.daemons i) self passing.token sent done

theorem taken_known (self next : Tsd) (tk : GenericToken) (tokens : List GenericToken) (took : Taken self tk next tokens) : tk.id ≠ 3 := by
  intro three
  cases took with
  | unknown _ id => rw [three] at id; cases id
  | duplicate _ _ id => rw [three] at id; cases id
  | activates _ _ _ id => rw [three] at id; cases id
  | dropped _ id => rw [three] at id; cases id
  | decomissions _ _ id => rw [three] at id; cases id
  | matched id => rw [three] at id; cases id
  | other id => exact id.2.2.2 three

theorem step_sourced (env : Fin n → Platform) (ring next : TokenRing n) (move : Move n) (sourced : Sourced ring)
    (moved : ring.step env move = some next) : Sourced next := by
  cases move with
  | hears i isLocal input =>
      unfold TokenRing.step at moved
      dsimp only at moved
      split at moved
      · cases moved
      · rename_i handled done
        cases moved
        have originates := handler_originates (env i) (ring.daemons i) isLocal ring.tickets input handled done
        refine ⟨fun j passing member => ?_, fun j passing member three => ?_⟩
        · rcases pass_on_cases ring.inbox i i 1 handled.sent j passing member with old | ⟨tk, there, same⟩
          · exact sourced.originated j passing old
          · rw [same]
            exact originates tk there
        · rcases pass_on_cases ring.inbox i i 1 handled.sent j passing member with old | ⟨tk, there, same⟩
          · exact sourced.replicated j passing old three
          · rw [same]
  | delivers i stray =>
      obtain ⟨passing, later, tokens, waiting, took, sent, same, inbox⟩ := delivered env ring next i stray moved
      have first : passing ∈ ring.inbox i := by
        rw [waiting]
        exact List.mem_cons_self
      have relayed : ∀ tk ∈ tokens, tk = passing.token := fun tk member => List.mem_singleton.mp (taken_relays _ _ _ _ took member)
      refine ⟨fun j other member => ?_, fun j other member three => ?_⟩
      · rw [inbox] at member
        rcases pass_on_cases _ i _ _ sent j other member with old | ⟨tk, there, equal⟩
        · exact sourced.originated j other (inbox_later ring.inbox i passing later waiting j other old)
        · rw [equal, relayed tk (same ▸ there)]
          exact sourced.originated i passing first
      · rw [inbox] at member
        rcases pass_on_cases _ i _ _ sent j other member with old | ⟨tk, there, equal⟩
        · exact sourced.replicated j other (inbox_later ring.inbox i passing later waiting j other old) three
        · rw [equal, relayed tk (same ▸ there)] at three
          exact absurd three (taken_known _ _ _ _ took)

theorem step_bounded (env : Fin n → Platform) (ring next : TokenRing n) (move : Move n) (sourced : Sourced ring) (bounded : ring.Bounded)
    (moved : ring.step env move = some next) : next.Bounded ↔ ring.EndsRound move := by
  cases move with
  | hears i isLocal input =>
      refine ⟨fun _ => trivial, fun _ j passing member => ?_⟩
      unfold TokenRing.step at moved
      dsimp only at moved
      split at moved
      · cases moved
      · rename_i handled done
        cases moved
        rcases pass_on_cases ring.inbox i i 1 handled.sent j passing member with old | ⟨tk, there, same⟩
        · exact bounded j passing old
        · rw [same]
          exact limit_positive tk
  | delivers i stray =>
      obtain ⟨passing, later, tokens, waiting, took, sent, same, inbox⟩ := delivered env ring next i stray moved
      have first : passing ∈ ring.inbox i := by
        rw [waiting]
        exact List.mem_cons_self
      have within := bounded i passing first
      obtain ⟨known, endless⟩ : (passing.token.id = 0 ∨ passing.token.id = 1 ∨ passing.token.id = 2) ∧ passing.token.ttl = -1 := by
        rcases sourced.originated i passing first with ordinary | three
        · exact ordinary
        · exact absurd three (taken_known _ _ _ _ took)
      have round : passing.token.limit n = n := by
        rw [GenericToken.limit, endless]
        exact Nat.max_eq_left (Nat.zero_le n)
      have old : ∀ j, ∀ other ∈ Function.update ring.inbox i later j, other.hops ≤ other.token.limit n := fun j other member =>
        bounded j other (inbox_later ring.inbox i passing later waiting j other member)
      have ends := taken_ends _ _ _ _ took endless known
      constructor
      · intro kept other rest waits full
        rw [waiting] at waits
        obtain ⟨sameFirst, _⟩ := List.cons.inj waits
        subst sameFirst
        refine ends.mp (List.eq_nil_iff_forall_not_mem.mpr fun tk member => ?_)
        have passed : (⟨tk, passing.origin, passing.hops + 1⟩ : Passing n) ∈ next.inbox (i + 1) := by
          rw [inbox, passOn, Function.update_self]
          exact List.mem_append_right _ (List.mem_map.mpr ⟨tk, same ▸ member, rfl⟩)
        have bound := kept (i + 1) _ passed
        have tk_ := List.mem_singleton.mp (taken_relays _ _ _ _ took member)
        dsimp only at bound
        rw [tk_, round] at bound
        omega
      · intro guard j other member
        rw [inbox] at member
        rcases pass_on_cases _ i _ _ sent j other member with before | ⟨tk, there, equal⟩
        · exact old j other before
        · have tk_ := List.mem_singleton.mp (taken_relays _ _ _ _ took (same ▸ there))
          have notFull : passing.hops ≠ n := by
            intro full
            have nothing := ends.mpr (guard passing later waiting full)
            rw [same, nothing] at there
            cases there
          rw [equal, tk_]
          dsimp only
          rw [round] at within ⊢
          omega

-- In every run in which the daemons start with empty links, whatever they are sent.
theorem tokens_end_with_their_round (env : Fin n → Platform) (start : TokenRing n) (moves : List (Move n))
    (empty : ∀ i, start.inbox i = []) :
    Runs.Throughout (TokenRing.step env) TokenRing.Bounded start moves ↔
      Runs.Meets (TokenRing.step env) TokenRing.EndsRound start moves := by
  have nothing : ∀ i passing, passing ∉ start.inbox i := fun i passing => by
    rw [empty i]
    exact List.not_mem_nil
  exact Runs.throughout_iff_meets (TokenRing.step env) (fun _ => True) TokenRing.EndsRound TokenRing.Bounded Sourced
    (fun ring move next _ sourced moved => step_sourced env ring next move sourced moved)
    (fun ring move next _ sourced bounded moved => step_bounded env ring next move sourced bounded moved)
    start moves (fun _ _ => trivial)
    ⟨fun i passing member => absurd member (nothing i passing), fun i passing member => absurd member (nothing i passing)⟩
    (fun i passing member => absurd member (nothing i passing))

-- One daemon that is its own neighbour.
def sampleLoop (tsMode : TsMode) : TokenRing 1 := TokenRing.start (fun _ => [65]) (fun _ => 1) fun _ =>
  [{ name := [115], directEndpoint := List.replicate 256 0, tsMode := tsMode, tsdMode := .token }]

def sampleArrival (call : Call) : Arrival where
  client := sampleClient
  ts := { host := .little, isLocal := false, tsname := sampleSpaceName }
  call := call
  chunks := []

set_option maxRecDepth 8000 in
theorem activation_ends_with_its_round :
    Runs.Throughout (TokenRing.step fun _ => samplePlatform) TokenRing.Bounded (sampleLoop .master)
      [(sampleArrival (.tsOpen 0)).move 0, .delivers 0 0] := by
  refine (tokens_end_with_their_round (fun _ => samplePlatform) (sampleLoop .master) _ fun _ => rfl).mpr ?_
  have opened : ∃ ring, (sampleLoop .master).step (fun _ => samplePlatform) ((sampleArrival (.tsOpen 0)).move 0) = some ring ∧
      ring.EndsRound (.delivers 0 0) := by
    refine ⟨_, rfl, fun passing later waiting full => ?_⟩
    cases waiting
    refine ⟨fun _ => ⟨[115], _, rfl, rfl, rfl⟩, fun one => ?_, fun two => ?_⟩
    · exact absurd (show (0 : UInt32) = 1 from one) (by decide)
    · exact absurd (show (0 : UInt32) = 2 from two) (by decide)
  obtain ⟨ring, moved, ends⟩ := opened
  intro next taken
  cases moved.symm.trans taken
  exact ⟨trivial, fun last _ => ⟨ends, trivial⟩⟩

set_option maxRecDepth 8000 in
-- An announcement goes round for ever: here it has been passed on twice on a ring of one.
theorem announcement_circulates :
    ∃ final, Runs.run (TokenRing.step fun _ => samplePlatform) (sampleLoop .p2p)
        [(sampleArrival (.tsInPut sampleName samplePayload)).move 0, .delivers 0 0] = some final ∧
      ∃ passing ∈ final.inbox 0, passing.token.id = 2 ∧ passing.token.ttl = -1 ∧ ¬ passing.hops ≤ passing.token.limit 1 :=
  ⟨_, rfl, _, List.mem_cons_self, rfl, rfl, by decide⟩

end Synergy
