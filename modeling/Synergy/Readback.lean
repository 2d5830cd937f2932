import Synergy.SpacesGrammar

set_option autoImplicit false

namespace Synergy

-- A char array of the given size read as a C string. held: what stands in it before its first NUL, or all of it.
def arrayString (size : Nat) (held : Bytes) : Except Stop Bytes := if held.length < size then .ok held else .error .undefined

-- successor_list + i * P2PM_MAX_ID_LEN read as a C string: where its slot has no NUL, the reading goes on in the next one.
def listString (list : Bytes) (i : Nat) : Except Stop Bytes :=
  if 0 ∈ list.drop (i * maxIdLen) then .ok (cstr (list.drop (i * maxIdLen))) else .error .undefined

structure SpaceReadsBack (element : Bson) (space : SpaceSection) : Prop where
  name : ∀ fields chars, element = .document fields → ("name", .utf8 chars) ∈ fields →
    ∃ held, space.name = some held ∧ arrayString 30 held = .ok chars
  direct : ∀ fields mode address, element = .document fields → ("tsd_mode", .array [mode, .utf8 address]) ∈ fields →
    ∃ held, space.directEndpoint = some held ∧ arrayString maxIdLen held = .ok address

-- Every configured address reads back as it stands in the document.
structure ReadsBack (document : List (String × Bson)) (config : SngConfig) : Prop where
  given : ∃ fields elements chars, p2pmdFields document = some fields ∧ (.successorList, .array elements) ∈ fields ∧
    (.predecessor, .utf8 chars) ∈ fields
  list : ∀ fields elements, p2pmdFields document = some fields → (.successorList, .array elements) ∈ fields →
    ∀ k < config.cfg.nodeInfo.r.toNat, ∃ chars, elements[k]? = some (.utf8 chars) ∧
      listString config.cfg.nodeInfo.successorList k = .ok chars
  counts : ∀ fields elements, p2pmdFields document = some fields → (.successorList, .array elements) ∈ fields →
    elements.length = config.cfg.nodeInfo.r.toNat
  successor : ∀ fields elements, p2pmdFields document = some fields → (.successorList, .array elements) ∈ fields →
    ∃ chars, elements[0]? = some (.utf8 chars) ∧ arrayString maxIdLen config.cfg.nodeInfo.successor = .ok chars
  predecessor : ∀ fields chars, p2pmdFields document = some fields → (.predecessor, .utf8 chars) ∈ fields →
    arrayString maxIdLen config.cfg.nodeInfo.predecessor = .ok chars
  spaces : ∀ entries, initFind document "spaces" = some (.array entries) → List.Forall₂ SpaceReadsBack entries config.spaces

-- An entry that fills its slot is ended by the next one only where that one is empty.
def EntriesEnd : List BsonValue → Prop
  | [] => True
  | .utf8 chars :: rest => NulFree chars ∧ (chars.length < maxIdLen ∨ rest.head? = some (.utf8 [])) ∧ EntriesEnd rest
  | _ :: rest => EntriesEnd rest

structure SpaceEnds (element : Bson) : Prop where
  name : ∀ fields chars, element = .document fields → ("name", .utf8 chars) ∈ fields → NulFree chars
  direct : ∀ fields mode address, element = .document fields → ("tsd_mode", .array [mode, .utf8 address]) ∈ fields →
    NulFree address ∧ address.length < maxIdLen

-- No address has a NUL in it, and there is room for one behind each.
structure AddressesEnd (document : List (String × Bson)) : Prop where
  list : ∀ fields elements, p2pmdFields document = some fields → (.successorList, .array elements) ∈ fields → EntriesEnd elements
  predecessor : ∀ fields chars, p2pmdFields document = some fields → (.predecessor, .utf8 chars) ∈ fields →
    NulFree chars ∧ chars.length < maxIdLen
  spaces : ∀ entries, initFind document "spaces" = some (.array entries) → ∀ element ∈ entries, SpaceEnds element

theorem string_reads_iff (chars more : Bytes) :
    (0 ∈ chars ++ more ∧ cstr (chars ++ more) = chars) ↔ NulFree chars ∧ more.head? = some 0 := by
  constructor
  · rintro ⟨ends, reads⟩
    have clean : NulFree chars := reads ▸ cstr_nul_free (chars ++ more)
    refine ⟨clean, ?_⟩
    rw [cstr_append chars more clean] at reads
    cases more with
    | nil => exact absurd (List.append_nil chars ▸ ends) clean
    | cons first rest =>
        by_cases zero : first = 0
        · rw [zero]
          rfl
        · rw [cstr_letter first rest zero] at reads
          exact absurd reads (by simp)
  · rintro ⟨clean, zero⟩
    obtain ⟨rest, rfl⟩ : ∃ rest, more = 0 :: rest := by
      cases more with
      | nil => cases zero
      | cons first rest =>
          cases zero
          exact ⟨rest, rfl⟩
    exact ⟨by simp, cstr_terminated chars rest clean⟩

theorem array_reads_iff (size : Nat) (chars : Bytes) :
    arrayString size (cstr chars) = .ok chars ↔ NulFree chars ∧ chars.length < size := by
  unfold arrayString
  constructor
  · intro reads
    split at reads
    · rename_i short
      have whole : cstr chars = chars := Except.ok.inj reads
      exact ⟨(cstr_eq_self chars).mp whole, whole ▸ short⟩
    · cases reads
  · rintro ⟨clean, short⟩
    rw [(cstr_eq_self chars).mpr clean, if_pos short]

theorem list_reads_iff (list chars : Bytes) (i : Nat) :
    listString list i = .ok chars ↔ 0 ∈ list.drop (i * maxIdLen) ∧ cstr (list.drop (i * maxIdLen)) = chars := by
  unfold listString
  split
  · rename_i ends
    exact ⟨fun same => ⟨ends, Except.ok.inj same⟩, fun both => congrArg _ both.2⟩
  · rename_i endless
    constructor
    · rintro ⟨⟩
    · exact fun both => absurd both.1 endless

theorem slot_length (chars : Bytes) (fits : chars.length ≤ maxIdLen) : (addressSlot chars).length = maxIdLen := by
  rw [addressSlot, List.length_append, List.length_replicate]
  omega

theorem first_reads_iff (chars tail : Bytes) (fits : chars.length ≤ maxIdLen) :
    listString (addressSlot chars ++ tail) 0 = .ok chars ↔ NulFree chars ∧ (chars.length < maxIdLen ∨ tail.head? = some 0) := by
  rw [list_reads_iff, Nat.zero_mul, List.drop_zero, addressSlot, List.append_assoc, string_reads_iff]
  refine and_congr_right fun _ => ?_
  by_cases short : chars.length < maxIdLen
  · obtain ⟨room, same⟩ : ∃ room, maxIdLen - chars.length = room + 1 := ⟨maxIdLen - chars.length - 1, by omega⟩
    rw [same, List.replicate_succ]
    simp [short]
  · have full : maxIdLen - chars.length = 0 := by omega
    rw [full, List.replicate_zero, List.nil_append]
    simp [short]

theorem later_reads (slot tail : Bytes) (i : Nat) (full : slot.length = maxIdLen) : listString (slot ++ tail)
    (i + 1) = listString tail i := by
  have behind : (slot ++ tail).drop ((i + 1) * maxIdLen) = tail.drop (i * maxIdLen) := by
    rw [Nat.succ_mul, Nat.add_comm, ← full, List.drop_length_add_append]
  rw [listString, behind, listString]

def EntriesRead (list : Bytes) (elements : List BsonValue) : Prop :=
  ∀ k < elements.length, ∃ chars, elements[k]? = some (.utf8 chars) ∧ listString list k = .ok chars

theorem entries_read_cons (chars tail : Bytes) (rest : List BsonValue) (fits : chars.length ≤ maxIdLen) :
    EntriesRead (addressSlot chars ++ tail) (.utf8 chars :: rest) ↔
      (NulFree chars ∧ (chars.length < maxIdLen ∨ tail.head? = some 0)) ∧ EntriesRead tail rest := by
  have later := fun k => later_reads (addressSlot chars) tail k (slot_length chars fits)
  rw [← first_reads_iff chars tail fits]
  constructor
  · intro read
    refine ⟨?_, fun k inside => ?_⟩
    · obtain ⟨_, ⟨⟩, reads⟩ := read 0 (Nat.succ_pos _)
      exact reads
    · obtain ⟨found, here, reads⟩ := read (k + 1) (Nat.succ_lt_succ inside)
      exact ⟨found, here, later k ▸ reads⟩
  · rintro ⟨first, behind⟩ k inside
    cases k with
    | zero => exact ⟨chars, rfl, first⟩
    | succ k =>
        obtain ⟨found, here, reads⟩ := behind k (Nat.lt_of_succ_lt_succ inside)
        exact ⟨found, here, (later k).trans reads⟩

-- What comes next starts with a NUL only where it is empty.
theorem tail_opens (rest : List BsonValue) (tail : Bytes) (listed : parseEntries rest = some tail) (ends : EntriesEnd rest) :
    tail.head? = some 0 ↔ rest.head? = some (.utf8 []) := by
  cases rest with
  | nil =>
      cases listed
      constructor <;> rintro ⟨⟩
  | cons element others =>
      cases element with
      | utf8 chars =>
          unfold parseEntries at listed
          split at listed
          · cases listed
          · obtain ⟨behind, _, rfl⟩ := Option.map_eq_some_iff.mp listed
            cases chars with
            | nil => exact ⟨fun _ => rfl, fun _ => rfl⟩
            | cons first chars =>
                constructor
                · rintro ⟨⟩
                  exact absurd List.mem_cons_self ends.1
                · rintro ⟨⟩
      | _ => cases listed

theorem entries_read_iff (elements : List BsonValue) (list : Bytes) (parsed : parseEntries elements = some list) :
    EntriesRead list elements ↔ EntriesEnd elements := by
  induction elements generalizing list with
  | nil => exact ⟨fun _ => trivial, fun _ k inside => absurd inside (Nat.not_lt_zero k)⟩
  | cons element rest ih =>
      cases element with
      | utf8 chars =>
          unfold parseEntries at parsed
          split at parsed
          · cases parsed
          · rename_i fits
            obtain ⟨tail, listed, rfl⟩ := Option.map_eq_some_iff.mp parsed
            rw [entries_read_cons chars tail rest (by omega), ih tail listed, EntriesEnd, and_assoc]
            refine and_congr_right fun _ => and_congr_left fun ends => or_congr_right ?_
            exact tail_opens rest tail listed ends
      | _ => cases parsed

-- What a field of the p2pmd section leaves in the configuration, once its bit is set.
def P2pmdShown (config : SngCfg) : P2pmdField × BsonValue → Prop
  | (.predecessor, .utf8 chars) => config.nodeInfo.predecessor = cstr chars
  | (.successorList, .array elements) => parseEntries elements = some config.nodeInfo.successorList
  | _ => True

structure P2pmdKept (config next : SngCfg) : Prop where
  bits : ∀ field ∈ config.bv, field ∈ next.bv
  shown : ∀ field : P2pmdField × BsonValue, field.1 ∈ config.bv → P2pmdShown config field → P2pmdShown next field

theorem shown_beside (config changed next : SngCfg) (name : P2pmdField) (done : setOnce changed name = some next)
    (bits : ∀ field ∈ config.bv, field ∈ changed.bv)
    (list : changed.nodeInfo.successorList = config.nodeInfo.successorList ∨ name = .successorList)
    (predecessor : changed.nodeInfo.predecessor = config.nodeInfo.predecessor ∨ name = .predecessor) : P2pmdKept config next := by
  obtain ⟨fresh, same⟩ := set_once_config changed next name done
  have unset : name ∉ config.bv := fun set => fresh (bits name set)
  refine ⟨fun field set => ?_, fun field set shown => ?_⟩
  · rw [same]
    exact List.mem_cons_of_mem _ (bits field set)
  · obtain ⟨field, value⟩ := field
    cases field <;> cases value <;> first | trivial | skip
    · have unchanged := list.resolve_right fun is => unset (is ▸ set)
      rw [same]
      exact shown.trans (congrArg some unchanged.symm)
    · have unchanged := predecessor.resolve_right fun is => unset (is ▸ set)
      rw [same]
      exact unchanged.trans shown

theorem set_bit (changed next : SngCfg) (name : P2pmdField) (done : setOnce changed name = some next) :
    name ∈ next.bv ∧ next.nodeInfo = changed.nodeInfo := by
  obtain ⟨_, rfl⟩ := set_once_config changed next name done
  exact ⟨List.mem_cons_self, rfl⟩

theorem field_shown (config next : SngCfg) (name : P2pmdField) (value : BsonValue) (done : parseField config name value = some next) :
    P2pmdKept config next ∧ name ∈ next.bv ∧ P2pmdShown next (name, value) := by
  unfold parseField at done
  split at done
  · obtain ⟨mode, _, set⟩ := Option.bind_eq_some_iff.mp done
    exact ⟨shown_beside config _ next _ set (fun _ => id) (.inl rfl) (.inl rfl), (set_bit _ next _ set).1, trivial⟩
  · exact ⟨shown_beside config _ next _ done (fun _ => id) (.inl rfl) (.inl rfl), (set_bit _ next _ done).1, trivial⟩
  · dsimp only at done
    split at done
    · cases done
    · exact ⟨shown_beside config _ next _ done (fun _ => List.mem_cons_of_mem _) (.inl rfl) (.inl rfl),
        (set_bit _ next _ done).1, trivial⟩
  · exact ⟨shown_beside config _ next _ done (fun _ => id) (.inl rfl) (.inl rfl), (set_bit _ next _ done).1, trivial⟩
  · dsimp only at done
    split at done
    · cases done
    · split at done
      · cases done
      · obtain ⟨list, parsed, set⟩ := Option.bind_eq_some_iff.mp done
        obtain ⟨bit, same⟩ := set_bit _ next _ set
        refine ⟨shown_beside config _ next _ set (fun _ => id) (.inr rfl) (.inl rfl), bit, ?_⟩
        rw [P2pmdShown, same]
        exact parsed
  · split at done
    · cases done
    · obtain ⟨bit, same⟩ := set_bit _ next _ done
      refine ⟨shown_beside config _ next _ done (fun _ => id) (.inl rfl) (.inr rfl), bit, ?_⟩
      rw [P2pmdShown, same]
  · cases done

theorem fields_shown (fields : List (P2pmdField × BsonValue)) (config final : SngCfg) (done : parseFields config fields = some final) :
    P2pmdKept config final ∧ ∀ field ∈ fields, P2pmdShown final field := by
  induction fields generalizing config with
  | nil =>
      cases done
      exact ⟨⟨fun _ => id, fun _ _ => id⟩, fun field member => absurd member List.not_mem_nil⟩
  | cons field rest ih =>
      obtain ⟨next, parsed, later⟩ := Option.bind_eq_some_iff.mp done
      obtain ⟨kept, bit, shown⟩ := field_shown config next field.1 field.2 parsed
      obtain ⟨behind, each⟩ := ih next later
      refine ⟨⟨fun name set => behind.bits name (kept.bits name set),
        fun other set before => behind.shown other (kept.bits _ set) (kept.shown other set before)⟩, ?_⟩
      exact List.forall_mem_cons.mpr ⟨behind.shown field bit shown, each⟩

structure GivenBy (fields : List (P2pmdField × BsonValue)) (config : P2pmdSection) : Prop where
  list : config.held = true → ∃ elements, (.successorList, .array elements) ∈ fields
  predecessor : .predecessor ∈ config.bv → ∃ chars, (.predecessor, .utf8 chars) ∈ fields

theorem section_once (changed next : P2pmdSection) (name : P2pmdField) (done : changed.once name = .ok next) :
    next.held = changed.held ∧ next.bv = name :: changed.bv := by
  unfold P2pmdSection.once at done
  split at done
  · cases done
  · cases done
    exact ⟨rfl, rfl⟩

theorem given_beside (fields : List (P2pmdField × BsonValue)) (config changed next : P2pmdSection) (name : P2pmdField)
    (given : GivenBy fields config) (done : changed.once name = .ok next) (held : changed.held = config.held)
    (bits : .predecessor ∈ changed.bv → .predecessor ∈ config.bv) (other : name ≠ .predecessor) : GivenBy fields next := by
  obtain ⟨sameHeld, sameBits⟩ := section_once changed next name done
  refine ⟨fun set => given.list (held ▸ sameHeld ▸ set), fun set => given.predecessor (bits ?_)⟩
  rw [sameBits] at set
  exact (List.mem_cons.mp set).resolve_left other.symm

theorem field_given (fields : List (P2pmdField × BsonValue)) (config next : P2pmdSection) (name : P2pmdField) (value : BsonValue)
    (given : GivenBy fields config) (member : (name, value) ∈ fields) (done : parseP2pmdField config name value = .ok next) :
    GivenBy fields next := by
  unfold parseP2pmdField at done
  split at done
  · split at done
    · cases done
    · exact given_beside fields config _ next _ given done rfl id (by decide)
  · exact given_beside fields config _ next _ given done rfl id (by decide)
  · dsimp only at done
    split at done
    · cases done
    · exact given_beside fields config _ next _ given done rfl (fun set => by simpa using set) (by decide)
  · exact given_beside fields config _ next _ given done rfl id (by decide)
  · rename_i elements
    unfold parseList at done
    dsimp only at done
    split at done
    · cases done
    · split at done
      · cases done
      · cases done
      · cases done
      · obtain ⟨_, bits⟩ := section_once _ next _ done
        refine ⟨fun _ => ⟨elements, member⟩, fun set => given.predecessor ?_⟩
        rw [bits] at set
        simpa using set
  · rename_i chars
    split at done
    · cases done
    · obtain ⟨held, _⟩ := section_once _ next _ done
      exact ⟨fun set => given.list (held ▸ set), fun _ => ⟨chars, member⟩⟩
  · cases done
  · cases done

theorem fields_given (fields rest : List (P2pmdField × BsonValue)) (config final : P2pmdSection) (given : GivenBy fields config)
    (inside : rest ⊆ fields) (done : parseP2pmdFields config rest = .ok final) : GivenBy fields final := by
  induction rest generalizing config with
  | nil =>
      cases done
      exact given
  | cons field rest ih =>
      rw [parseP2pmdFields] at done
      cases parsed : parseP2pmdField config field.1 field.2 with
      | error stop =>
          rw [parsed] at done
          cases done
      | ok next =>
          rw [parsed] at done
          have first := field_given fields config next field.1 field.2 given (inside List.mem_cons_self) parsed
          exact ih next first (fun other member => inside (List.mem_cons_of_mem _ member)) done

theorem p2pmd_parsed (before : SngCfg) (fields : List (P2pmdField × BsonValue)) (parsed : P2pmdSection)
    (done : parseP2pmd before fields = .ok parsed) :
    ∃ read : P2pmdSection, parseFields { before with bv := [] } fields = some read.toSngCfg ∧ (∀ field ∈ magic0, field ∈ read.bv) ∧
      GivenBy fields read ∧ parsed = { read with bv := [] } := by
  unfold parseP2pmd at done
  have same := fields_accepted { toSngCfg := { before with bv := [] }, held := false } fields
  cases read : parseP2pmdFields { toSngCfg := { before with bv := [] }, held := false } fields with
  | error stop =>
      rw [read] at done
      cases done
  | ok next =>
      rw [read] at done same
      change (if _ then _ else _) = _ at done
      split at done
      · cases done
      · rename_i all
        push Not at all
        cases done
        have start : GivenBy fields { toSngCfg := { before with bv := [] }, held := false } :=
          ⟨fun held => absurd held Bool.false_ne_true, fun set => absurd set List.not_mem_nil⟩
        exact ⟨next, same.symm, all, fields_given fields fields _ next start (List.Subset.refl _) read, rfl⟩

-- An accepted document: the fields of its p2pmd section, the entries of its spaces, and the first address as the successor.
structure DocumentRead (document : List (String × Bson)) (config : SngConfig) (fields : List (P2pmdField × BsonValue))
    (entries : List Bson) : Prop where
  section_ : p2pmdFields document = some fields
  list : ∃ elements, (.successorList, .array elements) ∈ fields
  predecessor : ∃ chars, (.predecessor, .utf8 chars) ∈ fields
  array : initFind document "spaces" = some (.array entries)
  spaces : parseSpaces entries = .ok config.spaces
  shown : ∀ field ∈ fields, P2pmdShown config.cfg field
  listed : P2pmdField.successorList ∈ fields.map Prod.fst →
    config.cfg.nodeInfo.successorList.length = config.cfg.nodeInfo.r.toNat * maxIdLen
  ends : 0 ∈ config.cfg.nodeInfo.successorList
  first : config.cfg.nodeInfo.successor = cstr config.cfg.nodeInfo.successorList
  fits : (cstr config.cfg.nodeInfo.successorList).length < maxIdLen

theorem shown_info (config other : SngCfg) (list : other.nodeInfo.successorList = config.nodeInfo.successorList)
    (predecessor : other.nodeInfo.predecessor = config.nodeInfo.predecessor) (field : P2pmdField × BsonValue)
    (shown : P2pmdShown config field) : P2pmdShown other field := by
  obtain ⟨field, value⟩ := field
  cases field <;> cases value <;> first | trivial | skip
  · exact shown.trans (congrArg some list.symm)
  · exact predecessor.trans shown

theorem document_read (before : SngCfg) (document : List (String × Bson)) (config : SngConfig)
    (accepted : sngParseDocument before document = .ok config) : ∃ fields entries, DocumentRead document config fields entries := by
  unfold sngParseDocument at accepted
  split at accepted
  · cases accepted
  · rename_i fields found
    cases parsed : parseP2pmd before fields with
    | error stop =>
        rw [parsed] at accepted
        cases accepted
    | ok parsed_ =>
        rw [parsed] at accepted
        dsimp only [bind, Except.bind] at accepted
        split at accepted
        · split at accepted
          · cases accepted
          · split at accepted
            · rename_i entries array
              cases spaces : parseSpaces entries with
              | error stop =>
                  rw [spaces] at accepted
                  cases accepted
              | ok list =>
                  rw [spaces] at accepted
                  change (if _ then _ else _) = _ at accepted
                  split at accepted
                  · cases accepted
                  · rename_i good
                    push Not at good
                    obtain ⟨held, ends, fits⟩ := good
                    cases accepted
                    obtain ⟨read, fieldsRead, all, given, same⟩ := p2pmd_parsed before fields parsed_ parsed
                    have info : parsed_.nodeInfo = read.nodeInfo := by rw [same]
                    have kept : read.held = true := by simpa [same] using held
                    refine ⟨fields, entries, found, given.list kept, given.predecessor (all _ (by decide)), array, spaces,
                      fun field member => ?_, fun listed => ?_, ends, rfl, fits⟩
                    · have shown := (fields_shown fields _ _ fieldsRead).2 field member
                      exact shown_info read.toSngCfg _ (by rw [← info]) (by rw [← info]) field shown
                    · have listed := fields_parsed fields _ _ (Or.inr listed) fieldsRead
                      have counted := listed.counted (all .r (by decide))
                      change parsed_.nodeInfo.successorList.length = parsed_.nodeInfo.r.toNat * maxIdLen
                      rw [info, ← counted]
                      exact listed.size
            · cases accepted
        · cases accepted

theorem entries_counted (document : List (String × Bson)) (config : SngConfig) (fields : List (P2pmdField × BsonValue))
    (entries : List Bson) (read : DocumentRead document config fields entries) (elements : List BsonValue)
    (member : (.successorList, .array elements) ∈ fields) : elements.length = config.cfg.nodeInfo.r.toNat := by
  have listed := read.listed (List.mem_map_of_mem member)
  rw [entries_length elements _ (read.shown _ member)] at listed
  exact Nat.eq_of_mul_eq_mul_right (by decide) listed

theorem member_shown (fields : List (String × Bson)) (space : SpaceSection) (left : SpaceOf (.document fields) space)
    (field : String × Bson) (member : field ∈ fields) : ∃ read : SpaceValue, Reads field read ∧ read.Shown space := by
  obtain ⟨_, ⟨⟩, filled, parsed, _, rfl⟩ := left
  obtain ⟨reads, each, said⟩ := fields_read fields emptySpace filled [] empty_said parsed
  have shown : ∀ read ∈ reads, read.Shown { filled with bv := [] } := fun read inside =>
    (shown_bits filled [] read).mpr (said.shown read (by simpa using inside))
  have both := (List.forall₂_and_left _ _).mpr ⟨shown, each.flip⟩
  obtain ⟨read, shownRead, reading⟩ := (forall_exists_iff _ _).mp ⟨reads, both.flip⟩ field member
  exact ⟨read, reading, shownRead⟩

theorem space_name_shown (fields : List (String × Bson)) (space : SpaceSection) (left : SpaceOf (.document fields) space) (chars : Bytes)
    (member : ("name", .utf8 chars) ∈ fields) : space.name = some (cstr chars) ∧ chars.length ≤ 25 := by
  obtain ⟨read, reads, shown⟩ := member_shown fields space left _ member
  generalize same : ("name", Bson.utf8 chars) = field at reads
  cases reads with
  | name _ fits =>
      cases same
      exact ⟨shown, fits⟩
  | _ => simp at same

theorem space_direct_shown (fields : List (String × Bson)) (space : SpaceSection) (left : SpaceOf (.document fields) space) (mode : Bson)
    (address : Bytes) (member : ("tsd_mode", .array [mode, .utf8 address]) ∈ fields) :
    space.directEndpoint = some (cstr address) := by
  obtain ⟨read, reads, shown⟩ := member_shown fields space left _ member
  generalize same : ("tsd_mode", Bson.array [mode, .utf8 address]) = field at reads
  cases reads with
  | direct chars _ known fits =>
      cases same
      exact shown.2
  | _ => simp at same

theorem space_reads_iff (element : Bson) (space : SpaceSection) (left : SpaceOf element space) :
    SpaceReadsBack element space ↔ SpaceEnds element := by
  constructor
  · intro reads
    refine ⟨fun fields chars same member => ?_, fun fields mode address same member => ?_⟩
    · obtain ⟨held, shown, back⟩ := reads.name fields chars same member
      obtain ⟨name, _⟩ := space_name_shown fields space (same ▸ left) chars member
      cases shown.symm.trans name
      exact ((array_reads_iff 30 chars).mp back).1
    · obtain ⟨held, shown, back⟩ := reads.direct fields mode address same member
      cases shown.symm.trans (space_direct_shown fields space (same ▸ left) mode address member)
      exact (array_reads_iff maxIdLen address).mp back
  · intro ends
    refine ⟨fun fields chars same member => ?_, fun fields mode address same member => ?_⟩
    · obtain ⟨name, fits⟩ := space_name_shown fields space (same ▸ left) chars member
      exact ⟨_, name, (array_reads_iff 30 chars).mpr ⟨ends.name fields chars same member, by omega⟩⟩
    · have endpoint := space_direct_shown fields space (same ▸ left) mode address member
      exact ⟨_, endpoint, (array_reads_iff maxIdLen address).mpr (ends.direct fields mode address same member)⟩

theorem spaces_read_iff (entries : List Bson) (spaces : List SpaceSection) (left : List.Forall₂ SpaceOf entries spaces) :
    List.Forall₂ SpaceReadsBack entries spaces ↔ ∀ element ∈ entries, SpaceEnds element := by
  induction left with
  | nil => exact ⟨fun _ element member => absurd member List.not_mem_nil, fun _ => .nil⟩
  | cons first _ ih => rw [List.forall₂_cons, List.forall_mem_cons, ih, space_reads_iff _ _ first]

-- The first slot and successor hold the same string: successor has been copied up to its NUL.
theorem successor_reads (document : List (String × Bson)) (config : SngConfig) (fields : List (P2pmdField × BsonValue))
    (entries : List Bson) (read : DocumentRead document config fields entries) (elements : List BsonValue)
    (member : (.successorList, .array elements) ∈ fields) (back : EntriesRead config.cfg.nodeInfo.successorList elements) :
    ∃ chars, elements[0]? = some (.utf8 chars) ∧ arrayString maxIdLen config.cfg.nodeInfo.successor = .ok chars := by
  have some_ : 0 < elements.length := by
    refine List.length_pos_iff.mpr fun none_ => ?_
    have listed : parseEntries elements = some config.cfg.nodeInfo.successorList := read.shown _ member
    rw [none_] at listed
    have empty : [] = config.cfg.nodeInfo.successorList := Option.some.inj listed
    exact absurd (empty ▸ read.ends) List.not_mem_nil
  obtain ⟨chars, first, reads⟩ := back 0 some_
  obtain ⟨_, whole⟩ := (list_reads_iff _ chars 0).mp reads
  rw [Nat.zero_mul, List.drop_zero] at whole
  refine ⟨chars, first, ?_⟩
  rw [arrayString, read.first, if_pos read.fits, whole]

-- Every configured address reads back if and only if each has an end of its own, or fills its slot in front of an empty one.
theorem reads_back_iff (before : SngCfg) (document : List (String × Bson)) (config : SngConfig)
    (accepted : sngParseDocument before document = .ok config) : ReadsBack document config ↔ AddressesEnd document := by
  obtain ⟨fields, entries, read⟩ := document_read before document config accepted
  have left := (parse_spaces_iff entries config.spaces).mp read.spaces
  constructor
  · intro back
    refine ⟨fun others elements found member => ?_, fun others chars found member => ?_, fun others found => ?_⟩
    · cases read.section_.symm.trans found
      refine (entries_read_iff elements _ (read.shown _ member)).mp ?_
      rw [EntriesRead, back.counts fields elements found member]
      exact back.list fields elements found member
    · cases read.section_.symm.trans found
      refine (array_reads_iff maxIdLen chars).mp ?_
      rw [← (read.shown _ member : config.cfg.nodeInfo.predecessor = cstr chars)]
      exact back.predecessor fields chars found member
    · cases read.array.symm.trans found
      exact (spaces_read_iff entries config.spaces left).mp (back.spaces entries found)
  · intro ends
    have reads : ∀ elements, (.successorList, .array elements) ∈ fields → EntriesRead config.cfg.nodeInfo.successorList elements :=
      fun elements member => (entries_read_iff elements _ (read.shown _ member)).mpr (ends.list fields elements read.section_ member)
    refine ⟨?_, ?_, ?_, ?_, ?_, ?_⟩
    · obtain ⟨elements, listed⟩ := read.list
      obtain ⟨chars, member⟩ := read.predecessor
      exact ⟨fields, elements, chars, read.section_, listed, member⟩
    · intro others elements found member
      cases read.section_.symm.trans found
      rw [← entries_counted document config fields entries read elements member]
      exact reads elements member
    · intro others elements found member
      cases read.section_.symm.trans found
      exact entries_counted document config fields entries read elements member
    · intro others elements found member
      cases read.section_.symm.trans found
      exact successor_reads document config fields entries read elements member (reads elements member)
    · intro others chars found member
      cases read.section_.symm.trans found
      rw [(read.shown _ member : config.cfg.nodeInfo.predecessor = cstr chars)]
      exact (array_reads_iff maxIdLen chars).mpr (ends.predecessor fields chars found member)
    · intro others found
      cases read.array.symm.trans found
      exact (spaces_read_iff entries config.spaces left).mpr (ends.spaces entries found)

-- A configuration with the given predecessor and spaces.
def configured (predecessor : Bytes) (spaces : List Bson) : List (String × Bson) :=
  [("p2pmd", .document [("mode", .utf8 [109, 101, 109, 98, 101, 114]), ("endpoint", .utf8 [80]),
      ("successor_list", .array [.utf8 [83]]), ("r", .int32 1), ("predecessor", .utf8 predecessor), ("r_max", .int32 5)]),
    ("tsd", .document [("endpoint", .utf8 [81]), ("ipc", .utf8 [82]), ("replication_factor", .int32 1)]),
    ("spaces", .array spaces)]

theorem configured_ends (predecessor : Bytes) (spaces : List Bson) (clean : NulFree predecessor) (short : predecessor.length < maxIdLen)
    (ends : ∀ element ∈ spaces, SpaceEnds element) : AddressesEnd (configured predecessor spaces) := by
  refine ⟨fun fields elements found member => ?_, fun fields chars found member => ?_, fun entries found => ?_⟩
  · cases found
    have only : elements = [.utf8 [83]] := by simpa [P2pmdField.ofKey, Bson.value, Bson.element] using member
    rw [only]
    exact ⟨by decide, Or.inl (by decide), trivial⟩
  · cases found
    have only : chars = predecessor := by simpa [P2pmdField.ofKey, Bson.value, Bson.element] using member
    rw [only]
    exact ⟨clean, short⟩
  · cases found
    exact ends

def sampleEntry : Bson :=
  .document [("name", .utf8 [97]), ("id", .int32 1), ("mode", .utf8 [119, 111, 114, 107, 101, 114]),
    ("tsd_mode", .array [.utf8 [100, 105, 114, 101, 99, 116], .utf8 [80]])]

theorem sample_entry_ends : SpaceEnds sampleEntry := by
  refine ⟨fun fields chars same member => ?_, fun fields mode address same member => ?_⟩
  · cases same
    have only : chars = [97] := by simpa using member
    rw [only]
    decide
  · cases same
    have only : mode = .utf8 [100, 105, 114, 101, 99, 116] ∧ address = [80] := by simpa using member
    rw [only.2]
    exact ⟨by decide, by decide⟩

theorem reads_back_iff_sample : ∃ config, sngParseDocument (strayConfig 0) (configured [79] [sampleEntry]) = .ok config ∧
    config.spaces.length = 1 ∧ ReadsBack (configured [79] [sampleEntry]) config :=
  ⟨_, rfl, rfl, (reads_back_iff (strayConfig 0) (configured [79] [sampleEntry]) _ rfl).mpr
    (configured_ends [79] [sampleEntry] (by decide) (by decide) fun element only => List.mem_singleton.mp only ▸ sample_entry_ends)⟩

set_option maxRecDepth 8000 in
theorem long_accepted : ∃ config, sngParseDocument (strayConfig 0) (configured (List.replicate maxIdLen 65) []) = .ok config := ⟨_, rfl⟩

theorem predecessor_runs_on : ¬ ∀ (before : SngCfg) (document : List (String × Bson)) (config : SngConfig),
    sngParseDocument before document = .ok config → ReadsBack document config := by
  intro claim
  obtain ⟨config, accepted⟩ := long_accepted
  have back := claim _ _ config accepted
  obtain ⟨fields, entries, read⟩ := document_read _ _ config accepted
  have member : (P2pmdField.predecessor, BsonValue.utf8 (List.replicate maxIdLen 65)) ∈ fields := by
    cases read.section_
    simp [P2pmdField.ofKey, Bson.value, Bson.element]
  have reads := back.predecessor fields _ read.section_ member
  rw [(read.shown _ member : config.cfg.nodeInfo.predecessor = cstr (List.replicate maxIdLen 65)), array_reads_iff] at reads
  exact absurd reads.2 (by simp)

end Synergy
