import Synergy.Answers
import Synergy.Glob

set_option autoImplicit false

namespace Synergy

-- search_tuple of named_queue_read_handler.
def queryTuple (asked : Bytes) : SngTuple := { name := .str asked, anonId := 0, data := [], origin := 0 }

-- tuple is the oldest one that compares as equal to the query.
structure Oldest (env : Platform) (asked : Bytes) (queue before : List SngTuple) (tuple : SngTuple) (after : List SngTuple) : Prop where
  split : queue = before ++ tuple :: after
  found : tplcmp env tuple (queryTuple asked) = .ok 0
  older : ∀ other ∈ before, ∃ order, tplcmp env other (queryTuple asked) = .ok order ∧ order ≠ 0

theorem clean_nonzero (c : UInt8) (rest : Bytes) (clean : NulFree (c :: rest)) : c.toNat ≠ 0 := by
  intro zero
  have null : c = 0 := UInt8.toNat_inj.mp zero
  exact clean (null ▸ List.mem_cons_self)

theorem strcmp_zero (a b : Bytes) (cleanA : NulFree a) (cleanB : NulFree b) : strcmp a b = 0 ↔ a = b := by
  induction a generalizing b with
  | nil =>
      cases b with
      | nil => simp [strcmp]
      | cons d other => simp [strcmp, clean_nonzero d other cleanB]
  | cons c rest ih =>
      cases b with
      | nil => simp [strcmp, clean_nonzero c rest cleanA]
      | cons d other =>
          have shorter := ih other (fun member => cleanA (List.mem_cons_of_mem _ member))
            (fun member => cleanB (List.mem_cons_of_mem _ member))
          by_cases same : c = d
          · simp [strcmp, same, shorter]
          · have apart : c.toNat ≠ d.toNat := fun equal => same (UInt8.toNat_inj.mp equal)
            simp only [strcmp, same, if_false, List.cons.injEq, false_and, iff_false]
            omega

-- An anonymous tuple compares above every query, whose id is 0.
theorem matched_named (env : Platform) (asked : Bytes) (tuple : SngTuple) (stored : tuple.Stored)
    (found : tplcmp env tuple (queryTuple asked) = .ok 0) : ∃ name, tuple.name = .str name ∧ nameCmp env name asked = 0 := by
  rcases stored with ⟨name, named⟩ | ⟨anonymous, nonzero⟩
  · rw [tplcmp_named env tuple _ name asked named rfl] at found
    exact ⟨name, named, Except.ok.inj found⟩
  · have wanted := (tplcmp_wants env .tsGet asked tuple (queryTuple asked) 0 rfl (Or.inr ⟨anonymous, nonzero⟩) rfl rfl found).mp rfl
    simp [wants, fetches, anonymous] at wanted

-- The seven cases of tplcmp leave only _match for such a name and such a query.
theorem pattern_matched (env : Platform) (pattern name : Bytes) (clean : NulFree name)
    (found : nameCmp env name ('!'.toUInt8 :: pattern) = 0) (noBang : name.head? ≠ some '!'.toUInt8)
    (noColon : name.head? ≠ some ':'.toUInt8) (noStar : name ≠ ['*'.toUInt8]) : name ∈ glob pattern := by
  have starName : ¬ strcmp name ['*'.toUInt8] = 0 := fun zero => noStar ((strcmp_zero name _ clean (by decide)).mp zero)
  have starQuery : ¬ strcmp ('!'.toUInt8 :: pattern) ['*'.toUInt8] = 0 := by
    have apart : ¬ '!'.toUInt8 = '*'.toUInt8 := by decide
    rw [strcmp, if_neg apart]
    decide
  have bangColon : ('!'.toUInt8 :: pattern).head? ≠ some ':'.toUInt8 := by
    simp only [List.head?_cons, ne_eq, Option.some.injEq]
    decide
  have isBang : ('!'.toUInt8 :: pattern).head? = some '!'.toUInt8 := rfl
  rw [nameCmp, if_neg starName, if_neg starQuery, if_neg (fun colon => noColon colon.1), if_neg (fun colon => bangColon colon.2),
    if_pos ⟨isBang, noBang⟩] at found
  exact match_sound pattern name found

theorem query_found (env : Platform) (asked : Bytes) (queue : List SngTuple) (stored : ∀ tuple ∈ queue, tuple.Stored) :
    (zlistxFind (fun tuple => tplcmp env tuple (queryTuple asked)) queue = .ok none ∧
      ∀ tuple ∈ queue, ∃ order, tplcmp env tuple (queryTuple asked) = .ok order ∧ order ≠ 0) ∨
    ∃ before tuple after, Oldest env asked queue before tuple after ∧
      zlistxFind (fun tuple => tplcmp env tuple (queryTuple asked)) queue = .ok (some before.length) := by
  obtain ⟨handle, searched⟩ := zlistx_find_total (fun tuple => tplcmp env tuple (queryTuple asked)) queue
    fun tuple member => tplcmp_total env tuple _ asked (stored tuple member) rfl
  cases handle with
  | none => exact Or.inl ⟨searched, zlistx_find_none _ _ searched⟩
  | some handle =>
      obtain ⟨before, tuple, after, split, position, found, older⟩ := zlistx_find_some _ _ _ searched
      rw [← position] at searched
      exact Or.inr ⟨before, tuple, after, ⟨split, found, older⟩, searched⟩

def isGet (action : TupleCommand) : Prop := action = .tsGet ∨ action = .tsGetBlocking

instance (action : TupleCommand) : Decidable (isGet action) := inferInstanceAs (Decidable (_ ∨ _))

theorem read_oldest (env : Platform) (args : HandlerArg) (space : TsdElement) (clientid asked : Bytes)
    (before after : List SngTuple) (tuple : SngTuple) (client : args.clientid = .str clientid)
    (open_ : args.isLocal = true ∨ space.isActivated = true) (stored : ∀ other ∈ space.namedQueue, other.Stored)
    (oldest : Oldest env asked space.namedQueue before tuple after) :
    readTuple env args space asked = (do
      let reply ← handleNamedQueueReadResponse env args.isLocal args.ticket tuple
      return { rt := some 0
               space := { space with
                   namedQueue := if isGet args.action then before ++ after else space.namedQueue
                   history := space.history ++ [.replied args.ticket args.action tuple] }
               sent := .frame args.isLocal args.ticket clientid true :: reply }) := by
  have served : ¬ ((!args.isLocal) = true ∧ (!space.isActivated) = true) := by
    rcases open_ with isLocal | active <;> simp [*]
  obtain ⟨name, named, zero⟩ := matched_named env asked tuple (stored tuple (by simp [oldest.split])) oldest.found
  have back : tplcmp env (queryTuple asked) tuple = .ok 0 := by
    rw [tplcmp_named env _ tuple asked name rfl named, (name_cmp_symm env asked name).mpr zero]
  have search : zlistxFind (fun other => tplcmp env other (queryTuple asked)) space.namedQueue = .ok (some before.length) := by
    rw [oldest.split]
    exact zlistx_find_first _ before after tuple oldest.found oldest.older
  have here : space.namedQueue[before.length]? = some tuple := by simp [oldest.split]
  have rest : (zlistxDetach space.namedQueue (some before.length)).2 = before ++ after := by
    rw [oldest.split, zlistx_detach_split]
  simp only [queryTuple] at search back
  simp only [readTuple, client, sendClientid, CString.chars, bind, Except.bind, pure, Except.pure, served, if_false, search,
    Option.bind_some, here, back, ne_eq, not_true_eq_false, rest, TsdElement.record]
  rfl

theorem read_absent (env : Platform) (args : HandlerArg) (space : TsdElement) (clientid asked : Bytes)
    (client : args.clientid = .str clientid) (open_ : args.isLocal = true ∨ space.isActivated = true)
    (search : zlistxFind (fun other => tplcmp env other (queryTuple asked)) space.namedQueue = .ok none) :
    ∃ acted, readTuple env args space asked = .ok acted ∧ acted.rt = some 2 ∧ acted.space.namedQueue = space.namedQueue := by
  have served : ¬ ((!args.isLocal) = true ∧ (!space.isActivated) = true) := by
    rcases open_ with isLocal | active <;> simp [*]
  simp only [queryTuple] at search
  simp only [readTuple, client, sendClientid, CString.chars, bind, Except.bind, pure, Except.pure, served, if_false, search,
    Option.bind_none]
  refine ⟨_, rfl, rfl, ?_⟩
  rw [TsdElement.enqueue]
  split <;> rfl

-- What a query that finds a tuple answers with and leaves.
structure AnsweredOldest (env : Platform) (args : HandlerArg) (space : TsdElement) (clientid asked : Bytes) (rest : Input)
    (result : Except Stop (Acted × Input)) (before : List SngTuple) (tuple : SngTuple) (after : List SngTuple) : Prop where
  oldest : Oldest env asked space.namedQueue before tuple after
  answered : result = (do
    let reply ← handleNamedQueueReadResponse env args.isLocal args.ticket tuple
    return ({ rt := some 0
              space := { space with
                  namedQueue := if isGet args.action then before ++ after else space.namedQueue
                  history := space.history ++ [.replied args.ticket args.action tuple] }
              sent := .frame args.isLocal args.ticket clientid true :: reply }, rest))
  named : ∃ name, tuple.name = .str name ∧ ∀ pattern, asked = '!'.toUInt8 :: pattern → NulFree name →
    name.head? ≠ some '!'.toUInt8 → name.head? ≠ some ':'.toUInt8 → name ≠ ['*'.toUInt8] → name ∈ glob pattern
  returns : tuple.data ≠ [] → ∃ reply, handleNamedQueueReadResponse env args.isLocal args.ticket tuple = .ok reply

theorem query_answers_oldest (env : Platform) (args : HandlerArg) (space : TsdElement) (clientid asked : Bytes) (input rest : Input)
    (client : args.clientid = .str clientid)
    (open_ : args.isLocal = true ∨ space.isActivated = true) (stored : ∀ tuple ∈ space.namedQueue, tuple.Stored)
    (received : recvStr env.host input = .ok (asked, rest)) :
    (∃ before tuple after,
      AnsweredOldest env args space clientid asked rest (namedQueueReadHandler env args space input) before tuple after) ∨
    ((∀ tuple ∈ space.namedQueue, ∃ order, tplcmp env tuple (queryTuple asked) = .ok order ∧ order ≠ 0) ∧
      ∃ acted, namedQueueReadHandler env args space input = .ok (acted, rest) ∧ acted.rt = some 2 ∧
        acted.space.namedQueue = space.namedQueue) := by
  rcases query_found env asked space.namedQueue stored with ⟨search, absent⟩ | ⟨before, tuple, after, oldest, _⟩
  · right
    obtain ⟨acted, done, missed, kept⟩ := read_absent env args space clientid asked client open_ search
    refine ⟨absent, acted, ?_, missed, kept⟩
    simp only [namedQueueReadHandler, received, done, bind, Except.bind, safeReturn, missed]
    rfl
  · left
    obtain ⟨name, named, zero⟩ := matched_named env asked tuple (stored tuple (by simp [oldest.split])) oldest.found
    refine ⟨before, tuple, after, oldest, ?_, ⟨name, named, ?_⟩, ?_⟩
    · have done := read_oldest env args space clientid asked before after tuple client open_ stored oldest
      simp only [namedQueueReadHandler, received, done, bind, Except.bind]
      cases handleNamedQueueReadResponse env args.isLocal args.ticket tuple <;> rfl
    · intro pattern same clean noBang noColon noStar
      subst same
      exact pattern_matched env pattern name clean zero noBang noColon noStar
    · exact read_response_total env args.isLocal args.ticket tuple name named

-- Two names under the pattern a?, behind an anonymous tuple.
def sampleShelf : TsdElement :=
  { sampleSpace with namedQueue := [⟨.null, 5, [7], 1⟩, ⟨.str [97, 98], 0, [7], 2⟩, ⟨.str [97, 99], 0, [7], 3⟩] }

def sampleQuestion : Input := ⟨[⟨[0, 0, 0, 4], true⟩, ⟨[33, 97, 63, 0], false⟩], true, []⟩

theorem query_answers_oldest_shelf :
    ∃ before tuple after,
      AnsweredOldest samplePlatform ⟨.str [67], .tsGet, true, 0⟩ sampleShelf [67] [33, 97, 63] ⟨[], false, []⟩
        (namedQueueReadHandler samplePlatform ⟨.str [67], .tsGet, true, 0⟩ sampleShelf sampleQuestion) before tuple after := by
  have stored : ∀ tuple ∈ sampleShelf.namedQueue, tuple.Stored := by
    intro tuple member
    simp only [sampleShelf, List.mem_cons, List.not_mem_nil, or_false] at member
    rcases member with same | same | same
    · exact Or.inr ⟨by rw [same], by rw [same]; decide⟩
    · exact Or.inl ⟨[97, 98], by rw [same]⟩
    · exact Or.inl ⟨[97, 99], by rw [same]⟩
  have fits : tplcmp samplePlatform ⟨.str [97, 98], 0, [7], 2⟩ (queryTuple [33, 97, 63]) = .ok 0 := by decide
  rcases query_answers_oldest samplePlatform ⟨.str [67], .tsGet, true, 0⟩ sampleShelf [67] [33, 97, 63] sampleQuestion ⟨[], false, []⟩
    rfl (Or.inl rfl) stored (by decide) with found | ⟨absent, _⟩
  · exact found
  · obtain ⟨order, compared, different⟩ := absent ⟨.str [97, 98], 0, [7], 2⟩ (by simp [sampleShelf])
    rw [fits] at compared
    exact absurd (Except.ok.inj compared).symm different

end Synergy
