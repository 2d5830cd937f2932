import Synergy.Lookup

set_option autoImplicit false

namespace Synergy

theorem tplicmp_neg (a b : SngTuple) : tplicmp b a = -tplicmp a b := by
  rcases Nat.lt_trichotomy a.anonId.toNat b.anonId.toNat with below | equal | above
  · have less : a.anonId < b.anonId := UInt32.lt_iff_toNat_lt.mpr below
    simp [tplicmp, less, UInt32.lt_asymm less]
  · have same : a.anonId = b.anonId := UInt32.toNat_inj.mp equal
    simp [tplicmp, same]
  · have less : b.anonId < a.anonId := UInt32.lt_iff_toNat_lt.mpr above
    simp [tplicmp, less, UInt32.lt_asymm less]

theorem tplcmp_anonymous (env : Platform) (a b : SngTuple)
    (anonymous : (a.name = .null ∧ a.anonId ≠ 0) ∨ (b.name = .null ∧ b.anonId ≠ 0)) :
    tplcmp env a b = .ok (tplicmp a b) ∧ tplcmp env b a = .ok (tplicmp b a) := by
  constructor
  · rw [tplcmp, if_pos anonymous]
  · rw [tplcmp, if_pos anonymous.symm]

theorem tplcmp_symm (env : Platform) (a b : SngTuple) (storedA : a.Stored) (storedB : b.Stored) :
    ∃ forth back, tplcmp env a b = .ok forth ∧ tplcmp env b a = .ok back ∧ (forth = 0 ↔ back = 0) := by
  have byId : ((a.name = .null ∧ a.anonId ≠ 0) ∨ (b.name = .null ∧ b.anonId ≠ 0)) →
      ∃ forth back, tplcmp env a b = .ok forth ∧ tplcmp env b a = .ok back ∧ (forth = 0 ↔ back = 0) := by
    intro anonymous
    obtain ⟨forth, back⟩ := tplcmp_anonymous env a b anonymous
    refine ⟨_, _, forth, back, ?_⟩
    rw [tplicmp_neg a b]
    omega
  rcases storedA with ⟨name1, named1⟩ | anonymous
  · rcases storedB with ⟨name2, named2⟩ | anonymous
    · exact ⟨_, _, tplcmp_named env a b name1 name2 named1 named2, tplcmp_named env b a name2 name1 named2 named1,
        name_cmp_symm env name1 name2⟩
    · exact byId (Or.inr anonymous)
  · exact byId (Or.inl anonymous)

theorem query_matches_named (env : Platform) (asked : Bytes) (tuple : SngTuple) (found : tplcmp env tuple (queryTuple asked) = .ok 0) :
    tuple.Stored := by
  cases name : tuple.name with
  | str chars => exact Or.inl ⟨chars, name⟩
  | null =>
      by_cases zero : tuple.anonId = 0
      · rw [tplcmp, if_neg (by simp [zero, queryTuple]), name] at found
        cases found
      · exact Or.inr ⟨name, zero⟩
  | freed =>
      rw [tplcmp, if_neg (by simp [name, queryTuple]), name] at found
      cases found

theorem query_back (env : Platform) (asked : Bytes) (tuple : SngTuple) (found : tplcmp env tuple (queryTuple asked) = .ok 0) :
    tplcmp env (queryTuple asked) tuple = .ok 0 := by
  obtain ⟨forth, back, compared, turned, both⟩ :=
    tplcmp_symm env tuple (queryTuple asked) (query_matches_named env asked tuple found) (Or.inl ⟨asked, rfl⟩)
  rw [compared] at found
  rw [turned, both.mp (Except.ok.inj found)]

theorem search_asserted (env : Platform) (queue : List SngTuple) (asked : Bytes) (handle : Nat) (result : SngTuple)
    (searched : zlistxFind (fun tuple => tplcmp env tuple (queryTuple asked)) queue = .ok (some handle))
    (here : queue[handle]? = some result) : tplcmp env (queryTuple asked) result = .ok 0 := by
  obtain ⟨before, tuple, after, split, position, zero, _⟩ := zlistx_find_some _ _ _ searched
  have same : queue[handle]? = some tuple := by
    rw [split, ← position]
    simp
  rw [here] at same
  cases same
  exact query_back env asked result zero

-- readTuple as NDEBUG leaves it.
def readTupleNdebug (env : Platform) (args : HandlerArg) (space : TsdElement) (name : Bytes) : Except Stop Acted := do
  let search : SngTuple := { name := .str name, anonId := 0, data := [], origin := 0 }
  let clientid ← sendClientid args.isLocal args.ticket args.clientid
  if !args.isLocal ∧ !space.isActivated then
    return { rt := some 1, space := space, sent := [clientid, sendEnf env args] }
  else
    let isGet := args.action = .tsGet ∨ args.action = .tsGetBlocking
    let handle ← zlistxFind (fun tuple => tplcmp env tuple search) space.namedQueue
    match handle.bind fun found => space.namedQueue[found]? with
    | none =>
        let missed := space.record (.notFound args.ticket (.str name) space.namedQueue)
        return { rt := some 2, space := missed.enqueue args (.str name), sent := [clientid, sendEnf env args] }
    | some result => do
        let reply ← handleNamedQueueReadResponse env args.isLocal args.ticket result
        let left := { space with namedQueue := if isGet then (zlistxDetach space.namedQueue handle).2 else space.namedQueue }
        return { rt := some 0, space := left.record (.replied args.ticket args.action result), sent := clientid :: reply }

def namedQueueReadHandlerNdebug (env : Platform) (args : HandlerArg) (space : TsdElement) (input : Input) :
    Except Stop (Acted × Input) := do
  let (name, input) ← recvStr env.host input
  let acted ← readTupleNdebug env args space name
  safeReturn acted input

theorem read_ndebug (env : Platform) (args : HandlerArg) (space : TsdElement) (name : Bytes) :
    readTuple env args space name = readTupleNdebug env args space name := by
  rw [readTuple, readTupleNdebug]
  cases sendClientid args.isLocal args.ticket args.clientid with
  | error stop => rfl
  | ok clientid =>
      dsimp only [bind, Except.bind]
      split
      · rfl
      · cases searched : zlistxFind (fun tuple => tplcmp env tuple { name := .str name, anonId := 0, data := [], origin := 0 })
            space.namedQueue with
        | error stop => rfl
        | ok handle =>
            cases handle with
            | none => rfl
            | some handle =>
                dsimp only [Option.bind_some]
                cases here : space.namedQueue[handle]? with
                | none => rfl
                | some result =>
                    have equal := search_asserted env space.namedQueue name handle result searched here
                    rw [queryTuple] at equal
                    dsimp only
                    rw [equal]
                    rfl

theorem read_handler_ndebug (env : Platform) (args : HandlerArg) (space : TsdElement) (input : Input) :
    namedQueueReadHandler env args space input = namedQueueReadHandlerNdebug env args space input := by
  simp only [namedQueueReadHandler, namedQueueReadHandlerNdebug, read_ndebug]

theorem pending_accepts (env : Platform) (request : BlockingRequest) (tuple : SngTuple) (asked stored : Bytes)
    (query : request.command = .tsGetBlocking ∨ request.command = .tsReadBlocking) (name : request.name = .str asked)
    (named : tuple.name = .str stored) :
    blckcmpStr env request (searchFor tuple) = .ok 0 ↔ tplcmp env tuple (queryTuple asked) = .ok 0 := by
  have ordinary : ¬ (request.command = .tsPopBlocking ∨ request.command = .tsPeekBlocking) := by
    rcases query with get | read <;> simp [*]
  have search : (searchFor tuple).name = .str stored := named
  rw [blckcmpStr, if_neg ordinary, name, search, tplcmp_named env _ _ asked stored rfl rfl,
    tplcmp_named env tuple (queryTuple asked) stored asked named rfl, Except.ok.injEq, Except.ok.injEq]
  exact name_cmp_symm env asked stored

theorem find_single {α : Type} (comparator : α → Except Stop Int) (element : α) :
    zlistxFind comparator [element] = .ok (some 0) ↔ comparator element = .ok 0 := by
  constructor
  · intro searched
    obtain ⟨before, found, after, split, position, zero, _⟩ := zlistx_find_some _ _ _ searched
    have first : before = [] := List.length_eq_zero_iff.mp position
    rw [first] at split
    cases split
    exact zero
  · intro zero
    exact zlistx_find_first comparator [] [] element zero (by simp)

theorem read_single (env : Platform) (args : HandlerArg) (space : TsdElement) (clientid asked stored : Bytes) (tuple : SngTuple)
    (client : args.clientid = .str clientid) (open_ : args.isLocal = true ∨ space.isActivated = true)
    (alone : space.namedQueue = [tuple]) (named : tuple.name = .str stored) :
    (tplcmp env tuple (queryTuple asked) = .ok 0 ∧ (∀ acted, readTuple env args space asked = .ok acted → acted.rt = some 0) ∧
      (tuple.data ≠ [] → ∃ acted, readTuple env args space asked = .ok acted)) ∨
    (¬ tplcmp env tuple (queryTuple asked) = .ok 0 ∧ ∃ acted, readTuple env args space asked = .ok acted ∧ acted.rt = some 2) := by
  have wellFormed : ∀ other ∈ space.namedQueue, other.Stored := by
    intro other member
    rw [alone, List.mem_singleton] at member
    exact Or.inl ⟨stored, member ▸ named⟩
  by_cases equal : tplcmp env tuple (queryTuple asked) = .ok 0
  · left
    rw [read_oldest env args space clientid asked [] [] tuple client open_ wellFormed ⟨alone, equal, by simp⟩]
    refine ⟨equal, ?_, ?_⟩
    · intro acted done
      obtain ⟨reply, _, done⟩ := bind_ok _ _ _ done
      cases done
      rfl
    · intro nonempty
      obtain ⟨reply, sent⟩ := read_response_total env args.isLocal args.ticket tuple stored named nonempty
      rw [sent]
      exact ⟨_, rfl⟩
  · right
    refine ⟨equal, ?_⟩
    rcases query_found env asked space.namedQueue wellFormed with ⟨missed, _⟩ | ⟨before, found, after, oldest, _⟩
    · obtain ⟨acted, done, notFound, _⟩ := read_absent env args space clientid asked client open_ missed
      exact ⟨acted, done, notFound⟩
    · have member : found ∈ space.namedQueue := by simp [oldest.split]
      rw [alone, List.mem_singleton] at member
      exact absurd (member ▸ oldest.found) equal

-- The two orders of comparison agree. What rests on it: the assert of named_queue_read_handler, and that a request waits
-- for the tuples it would have found.
structure SymmetricMatching (env : Platform) : Prop where
  symmetric : ∀ a b : SngTuple, a.Stored → b.Stored →
    ∃ forth back, tplcmp env a b = .ok forth ∧ tplcmp env b a = .ok back ∧ (forth = 0 ↔ back = 0)
  asserted : ∀ queue asked handle result,
    zlistxFind (fun tuple => tplcmp env tuple (queryTuple asked)) queue = .ok (some handle) → queue[handle]? = some result →
    tplcmp env (queryTuple asked) result = .ok 0
  unaborted : ∀ args space input, namedQueueReadHandler env args space input = namedQueueReadHandlerNdebug env args space input
  accepted : ∀ request tuple asked stored, request.command = .tsGetBlocking ∨ request.command = .tsReadBlocking →
    request.name = .str asked → tuple.name = .str stored →
    (blckcmpStr env request (searchFor tuple) = .ok 0 ↔
      zlistxFind (fun other => tplcmp env other (queryTuple asked)) [tuple] = .ok (some 0))
  answered : ∀ request tuple asked stored args space clientid, request.command = .tsGetBlocking ∨ request.command = .tsReadBlocking →
    request.name = .str asked → tuple.name = .str stored → args.clientid = .str clientid →
    (args.isLocal = true ∨ space.isActivated = true) → space.namedQueue = [tuple] →
    (¬ blckcmpStr env request (searchFor tuple) = .ok 0 ↔ ∃ acted, readTuple env args space asked = .ok acted ∧ acted.rt = some 2) ∧
    (tuple.data ≠ [] →
      (blckcmpStr env request (searchFor tuple) = .ok 0 ↔ ∃ acted, readTuple env args space asked = .ok acted ∧ acted.rt = some 0))

theorem matching_symmetric (env : Platform) : SymmetricMatching env := by
  refine ⟨tplcmp_symm env, search_asserted env, read_handler_ndebug env, ?_, ?_⟩
  · intro request tuple asked stored query name named
    rw [find_single]
    exact pending_accepts env request tuple asked stored query name named
  · intro request tuple asked stored args space clientid query name named client open_ alone
    rw [pending_accepts env request tuple asked stored query name named]
    rcases read_single env args space clientid asked stored tuple client open_ alone named with
      ⟨equal, served, sent⟩ | ⟨different, acted, done, missed⟩
    · constructor
      · refine iff_of_false (fun refused => refused equal) ?_
        rintro ⟨acted, done, missed⟩
        rw [served acted done] at missed
        cases missed
      · intro nonempty
        obtain ⟨acted, done⟩ := sent nonempty
        exact iff_of_true equal ⟨acted, done, served acted done⟩
    · constructor
      · exact iff_of_true different ⟨acted, done, missed⟩
      · intro _
        refine iff_of_false different ?_
        rintro ⟨other, doneOther, found⟩
        rw [done] at doneOther
        cases doneOther
        rw [missed] at found
        cases found

end Synergy
