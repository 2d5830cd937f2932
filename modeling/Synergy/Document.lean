import Synergy.Config
import Synergy.Handlers

set_option autoImplicit false

namespace Synergy

-- A value of a configuration document, as far as sng_parse_config tells its type.
inductive Bson where
  | utf8 (chars : Bytes)
  | int32 (value : Int32)
  | array (elements : List Bson)
  | document (fields : List (String × Bson))
  | other

-- bson_iter_find: it goes on from where the iterator stands.
def iterFind : List (String × Bson) → String → Option (Bson × List (String × Bson))
  | [], _ => none
  | (name, value) :: rest, key => if name = key then some (value, rest) else iterFind rest key

-- bson_iter_init_find.
def initFind (fields : List (String × Bson)) (key : String) : Option Bson := (iterFind fields key).map Prod.fst

def P2pmdField.ofKey (key : String) : P2pmdField :=
  if key = "mode" then .mode
  else if key = "endpoint" then .endpoint
  else if key = "r" then .r
  else if key = "r_max" then .rMax
  else if key = "successor_list" then .successorList
  else if key = "predecessor" then .predecessor
  else .unknown

-- An element of an array of the p2pmd section.
def Bson.element : Bson → BsonValue
  | .utf8 chars => .utf8 chars
  | .int32 value => .int32 value
  | _ => .other

def Bson.value : Bson → BsonValue
  | .array elements => .array (elements.map Bson.element)
  | value => value.element

-- P2PM_OP_FAILURE; exit(1); what C leaves open, such as free of a pointer that nobody has set.
inductive ParseStop where
  | failure | exits | undefined
deriving DecidableEq, Repr

-- sng_cfg_t in the p2pmd section. held: successor_list points to a block that malloc has returned.
structure P2pmdSection extends SngCfg where
  held : Bool

-- _handle_parse_failure in this section: where the bit says so, it frees successor_list.
def P2pmdSection.fails (config : P2pmdSection) (stop : ParseStop) : ParseStop :=
  if .successorList ∈ config.bv ∧ config.held = false then .undefined else stop

def P2pmdSection.once (config : P2pmdSection) (field : P2pmdField) : Except ParseStop P2pmdSection :=
  if field ∈ config.bv then .error (config.fails .failure) else .ok { config with bv := field :: config.bv }

-- Why an entry does not get into its slot. past: it would be written past the block.
inductive EntryStop where
  | kind | long | past
deriving DecidableEq, Repr

-- The entries from the i-th on, each in its slot of a block of the given size.
def copyEntries (size : Nat) : Nat → List BsonValue → Except EntryStop Bytes
  | _, [] => .ok []
  | i, .utf8 chars :: rest =>
      if chars.length > maxIdLen then .error .long
      else if size < i * maxIdLen + chars.length then .error .past
      else (copyEntries size (i + 1) rest).map (addressSlot chars ++ ·)
  | _, _ :: _ => .error .kind

-- The size of the block is computed in 32 bits. An entry that is too long frees the block before _handle_parse_failure does.
def parseList (config : P2pmdSection) (elements : List BsonValue) : Except ParseStop P2pmdSection :=
  let config := { config with rList := UInt32.ofNat elements.length }
  if P2pmdField.r ∈ config.bv ∧ config.rList ≠ config.nodeInfo.r then .error (config.fails .failure)
  else
    match copyEntries (shiftId config.rList).toNat 0 elements with
    | .error .kind => .error ({ config with held := true }.fails .failure)
    | .error .long => .error ({ config with held := false }.fails .failure)
    | .error .past => .error .undefined
    | .ok list => { config with nodeInfo := { config.nodeInfo with successorList := list }, held := true }.once .successorList

def parseP2pmdField (config : P2pmdSection) : P2pmdField → BsonValue → Except ParseStop P2pmdSection
  | .mode, .utf8 chars =>
      match utf8Mode (cstr chars) with
      | none => .error (config.fails .failure)
      | some mode => { config with p2pmdMode := mode }.once .mode
  | .endpoint, .utf8 chars => { config with p2pmdEndpoint := cstr chars }.once .endpoint
  | .r, .int32 r =>
      -- _bvset(sng_config->bv, _BVSUCCLIST) sets the bit it is to test
      let config := { config with
        nodeInfo := { config.nodeInfo with r := r.toUInt32 }
        bv := .successorList :: config.bv }
      if config.rList ≠ config.nodeInfo.r then .error (config.fails .failure) else config.once .r
  | .rMax, .int32 rMax => { config with nodeInfo := { config.nodeInfo with rMax := rMax.toUInt32 } }.once .rMax
  | .successorList, .array elements => parseList config elements
  | .predecessor, .utf8 chars =>
      if chars.length > maxIdLen then .error (config.fails .failure)
      else { config with nodeInfo := { config.nodeInfo with predecessor := cstr chars } }.once .predecessor
  | .unknown, _ => .error (config.fails .exits)
  | _, _ => .error (config.fails .failure)

def parseP2pmdFields (config : P2pmdSection) : List (P2pmdField × BsonValue) → Except ParseStop P2pmdSection
  | [] => .ok config
  | (field, value) :: rest => do
      let config ← parseP2pmdField config field value
      parseP2pmdFields config rest

-- The p2pmd section; before is what malloc has left in *sng_config.
def parseP2pmd (before : SngCfg) (fields : List (P2pmdField × BsonValue)) : Except ParseStop P2pmdSection := do
  let config ← parseP2pmdFields { toSngCfg := { before with bv := [] }, held := false } fields
  if ∃ field ∈ magic0, field ∉ config.bv then throw .exits
  return { config with bv := [] }

-- What the tsd section sets; a pointer that bson_iter_dup_utf8 has returned for something else is none.
structure TsdSection where
  endpoint : Option Bytes
  ipcEndpoint : Option Bytes
  repFactor : UInt32

def Bson.dupUtf8 : Bson → Option Bytes
  | .utf8 chars => some (cstr chars)
  | _ => none

def Bson.int32OrZero : Bson → Int32
  | .int32 value => value
  | _ => 0

-- The three fields are looked for one behind the other.
def parseTsd (fields : List (String × Bson)) : Option TsdSection := do
  let (endpoint, rest) ← iterFind fields "endpoint"
  let (ipc, rest) ← iterFind rest "ipc"
  let (factor, _) ← iterFind rest "replication_factor"
  return { endpoint := endpoint.dupUtf8, ipcEndpoint := ipc.dupUtf8, repFactor := factor.int32OrZero.toUInt32 }

inductive SpaceField where
  | name | id | mode | tsdMode
deriving DecidableEq, Repr

def magic1 : List SpaceField := [.name, .id, .mode, .tsdMode]

-- sng_namespace_t as the spaces section leaves it; what has not been set is none.
structure SpaceSection where
  name : Option Bytes
  directEndpoint : Option Bytes
  id : Option Int32
  tsMode : Option TsMode
  tsdMode : Option TsdMode
  bv : List SpaceField

def SpaceSection.once (space : SpaceSection) (field : SpaceField) : Option SpaceSection :=
  if field ∈ space.bv then none else some { space with bv := field :: space.bv }

def utf8TsMode : Bytes → Option TsMode
  | [109, 97, 115, 116, 101, 114] => some .master
  | [119, 111, 114, 107, 101, 114] => some .worker
  | [112, 50, 112] => some .p2p
  | _ => none

def utf8TsdMode : Bytes → Option TsdMode
  | [116, 111, 107, 101, 110] => some .token
  | [100, 105, 114, 101, 99, 116] => some .direct
  | _ => none

-- The address behind "direct" may be anything; what is no string is none.
def parseTsdMode (space : SpaceSection) : List Bson → Option SpaceSection
  | [.utf8 chars] =>
      match utf8TsdMode (cstr chars) with
      | some .token => some { space with tsdMode := some .token }
      | _ => none
  | [.utf8 chars, address] =>
      match utf8TsdMode (cstr chars) with
      | some .direct =>
          let endpoint := (address.dupUtf8).getD []
          match address with
          | .utf8 master =>
              if master.length > maxIdLen then none
              else some { space with tsdMode := some .direct, directEndpoint := some endpoint }
          | _ => some { space with tsdMode := some .direct, directEndpoint := some endpoint }
      | _ => none
  | _ => none

-- One field of an entry of the spaces section; none is P2PM_OP_FAILURE.
def parseSpaceField (space : SpaceSection) (key : String) (value : Bson) : Option SpaceSection :=
  match key, value with
  | "name", .utf8 chars => if chars.length > 25 then none else { space with name := some (cstr chars) }.once .name
  | "id", .int32 id => { space with id := some id }.once .id
  | "mode", .utf8 chars => do
      let mode ← utf8TsMode (cstr chars)
      { space with tsMode := some mode }.once .mode
  | "tsd_mode", .array elements => do
      let space ← parseTsdMode space elements
      space.once .tsdMode
  | _, _ => none

def parseSpaceFields (space : SpaceSection) : List (String × Bson) → Option SpaceSection
  | [] => some space
  | (key, value) :: rest => do
      let space ← parseSpaceField space key value
      parseSpaceFields space rest

def emptySpace : SpaceSection := { name := none, directEndpoint := none, id := none, tsMode := none, tsdMode := none, bv := [] }

def parseSpaces : List Bson → Except ParseStop (List SpaceSection)
  | [] => .ok []
  | .document fields :: rest =>
      match parseSpaceFields emptySpace fields with
      | none => .error .failure
      | some space =>
          if ∃ field ∈ magic1, field ∉ space.bv then .error .exits
          else (parseSpaces rest).map ({ space with bv := [] } :: ·)
  | _ :: _ => .error .failure

structure SngConfig where
  cfg : SngCfg
  tsd : TsdSection
  spaces : List SpaceSection

-- The fields of the first p2pmd section, where it is an object.
def p2pmdFields (document : List (String × Bson)) : Option (List (P2pmdField × BsonValue)) :=
  match initFind document "p2pmd" with
  | some (.document fields) => some (fields.map fun field => (.ofKey field.1, field.2.value))
  | _ => none

-- sng_parse_config. Without spaces it goes on with a num_spaces that it has not set.
def sngParseDocument (before : SngCfg) (document : List (String × Bson)) : Except ParseStop SngConfig :=
  match p2pmdFields document with
  | none => .error .failure
  | some fields => do
      let config ← parseP2pmd before fields
      match initFind document "tsd" with
      | some (.document fields) =>
          match parseTsd fields with
          | none => .error .failure
          | some tsd =>
              match initFind document "spaces" with
              | some (.array entries) =>
                  let spaces ← parseSpaces entries
                  let list := config.nodeInfo.successorList
                  if config.held = false ∨ 0 ∉ list ∨ maxIdLen ≤ (cstr list).length then .error .undefined
                  else
                    let nodeInfo := { config.nodeInfo with successor := cstr list, tempPredecessor := [], tempSuccessor := [] }
                    .ok { cfg := { config.toSngCfg with nodeInfo := nodeInfo }, tsd := tsd, spaces := spaces }
              | _ => .error .undefined
      | _ => .error .failure

theorem copy_entries_all (size : Nat) (elements : List BsonValue) (i : Nat) (list : Bytes)
    (copied : copyEntries size i elements = .ok list) :
    parseEntries elements = some list ∧ (elements ≠ [] → (i + elements.length - 1) * maxIdLen ≤ size) := by
  induction elements generalizing i list with
  | nil =>
      cases copied
      exact ⟨rfl, fun nonempty => absurd rfl nonempty⟩
  | cons element rest ih =>
      cases element with
      | utf8 chars =>
          unfold copyEntries at copied
          split at copied
          · cases copied
          · rename_i fits
            split at copied
            · cases copied
            · rename_i inside
              cases later : copyEntries size (i + 1) rest with
              | error stop =>
                  rw [later] at copied
                  cases copied
              | ok tail =>
                  rw [later] at copied
                  cases copied
                  obtain ⟨parsed, last⟩ := ih (i + 1) tail later
                  refine ⟨?_, fun _ => ?_⟩
                  · rw [parseEntries, if_neg fits, parsed]
                    rfl
                  · rw [List.length_cons]
                    by_cases empty : rest = []
                    · rw [empty, List.length_nil]
                      have here : i + (0 + 1) - 1 = i := by omega
                      rw [here]
                      omega
                    · have same : i + 1 + rest.length - 1 = i + (rest.length + 1) - 1 := by omega
                      rw [← same]
                      exact last empty
      | int32 value => cases copied
      | array elements => cases copied
      | other => cases copied

theorem copy_entries_fit (size : Nat) (elements : List BsonValue) (i : Nat) (list : Bytes) (parsed : parseEntries elements = some list)
    (room : (i + elements.length) * maxIdLen ≤ size) : copyEntries size i elements = .ok list := by
  induction elements generalizing i list with
  | nil =>
      cases parsed
      rfl
  | cons element rest ih =>
      cases element with
      | utf8 chars =>
          unfold parseEntries at parsed
          split at parsed
          · cases parsed
          · rename_i fits
            obtain ⟨tail, listed, same⟩ := Option.map_eq_some_iff.mp parsed
            rw [List.length_cons] at room
            have rooms : (i + 1) * maxIdLen ≤ size := Nat.le_trans (Nat.mul_le_mul_right _ (by omega)) room
            have inside : ¬ size < i * maxIdLen + chars.length := by
              rw [Nat.succ_mul] at rooms
              omega
            have behind : i + 1 + rest.length = i + (rest.length + 1) := by omega
            have later := ih (i + 1) tail listed (behind ▸ room)
            rw [copyEntries, if_neg fits, if_neg inside, later, ← same]
            rfl
      | int32 value => cases parsed
      | array elements => cases parsed
      | other => cases parsed

-- A block that holds the last entry's start holds all of them: its size has not wrapped around.
theorem block_holds (count : Nat) (room : (count - 1) * maxIdLen ≤ (shiftId (UInt32.ofNat count)).toNat) :
    count * maxIdLen ≤ (shiftId (UInt32.ofNat count)).toNat := by
  rw [shift_id_blocks, UInt32.toNat_ofNat'] at room ⊢
  have positive : 0 < maxIdLen := by decide
  have below := Nat.le_of_mul_le_mul_right room positive
  refine Nat.mul_le_mul_right _ ?_
  omega

-- The result of a field, where it is accepted.
def accepted (result : Except ParseStop P2pmdSection) : Option SngCfg := result.toOption.map P2pmdSection.toSngCfg

theorem once_accepted (config : P2pmdSection) (field : P2pmdField) : accepted (config.once field) = setOnce config.toSngCfg field := by
  unfold P2pmdSection.once setOnce
  split
  · rfl
  · rfl

theorem list_accepted (config : P2pmdSection) (elements : List BsonValue) :
    accepted (parseList config elements) = parseField config.toSngCfg .successorList (.array elements) := by
  unfold parseList
  simp only [parseField]
  split
  · rfl
  · cases copied : copyEntries (shiftId (UInt32.ofNat elements.length)).toNat 0 elements with
    | ok list =>
        obtain ⟨parsed, last⟩ := copy_entries_all _ elements 0 list copied
        have room : ¬ (shiftId (UInt32.ofNat elements.length)).toNat < elements.length * maxIdLen := by
          by_cases empty : elements = []
          · rw [empty]
            simp
          · have holds := last empty
            rw [Nat.zero_add] at holds
            exact Nat.not_lt.mpr (block_holds elements.length holds)
        rw [if_neg room, parsed]
        exact once_accepted _ _
    | error stop =>
        have missing : ¬ (shiftId (UInt32.ofNat elements.length)).toNat < elements.length * maxIdLen → parseEntries elements = none := by
          intro room
          cases parsed : parseEntries elements with
          | none => rfl
          | some list =>
              have all : (0 + elements.length) * maxIdLen ≤ (shiftId (UInt32.ofNat elements.length)).toNat := by
                rw [Nat.zero_add]
                exact Nat.not_lt.mp room
              cases copied.symm.trans (copy_entries_fit _ elements 0 list parsed all)
        have rejected : ∀ next : Bytes → Option SngCfg,
            none = if (shiftId (UInt32.ofNat elements.length)).toNat < elements.length * maxIdLen then none
              else (parseEntries elements).bind next := by
          intro next
          split
          · rfl
          · rename_i room
            rw [missing room]
            rfl
        cases stop with
        | kind => exact rejected _
        | long => exact rejected _
        | past => exact rejected _

theorem field_accepted (config : P2pmdSection) (field : P2pmdField) (value : BsonValue) :
    accepted (parseP2pmdField config field value) = parseField config.toSngCfg field value := by
  cases field with
  | successorList =>
      cases value with
      | array elements => exact list_accepted config elements
      | _ => rfl
  | mode =>
      cases value with
      | utf8 chars =>
          simp only [parseP2pmdField, parseField]
          cases utf8Mode (cstr chars) with
          | none => rfl
          | some mode => exact once_accepted _ _
      | _ => rfl
  | endpoint =>
      cases value with
      | utf8 chars => exact once_accepted _ _
      | _ => rfl
  | r =>
      cases value with
      | int32 r =>
          simp only [parseP2pmdField, parseField]
          split
          · rfl
          · exact once_accepted _ _
      | _ => rfl
  | rMax =>
      cases value with
      | int32 rMax => exact once_accepted _ _
      | _ => rfl
  | predecessor =>
      cases value with
      | utf8 chars =>
          simp only [parseP2pmdField, parseField]
          split
          · rfl
          · exact once_accepted _ _
      | _ => rfl
  | unknown =>
      cases value with
      | _ => rfl

theorem fields_accepted (config : P2pmdSection) (fields : List (P2pmdField × BsonValue)) :
    accepted (parseP2pmdFields config fields) = parseFields config.toSngCfg fields := by
  induction fields generalizing config with
  | nil => rfl
  | cons entry rest ih =>
      obtain ⟨field, value⟩ := entry
      have same := field_accepted config field value
      rw [parseFields, ← same]
      cases parsed : parseP2pmdField config field value with
      | error stop =>
          rw [parseP2pmdFields, parsed]
          rfl
      | ok next =>
          rw [parseP2pmdFields, parsed]
          exact ih next

-- What a field does where neither r nor the list it comes with has been seen.
inductive FieldVerdict where
  | good | refused | long | past | unknown
deriving DecidableEq, Repr

def fieldVerdict : P2pmdField → BsonValue → FieldVerdict
  | .mode, .utf8 chars => if utf8Mode (cstr chars) = none then .refused else .good
  | .endpoint, .utf8 _ => .good
  | .rMax, .int32 _ => .good
  | .successorList, .array elements =>
      match copyEntries (shiftId (UInt32.ofNat elements.length)).toNat 0 elements with
      | .ok _ => .good
      | .error .kind => .refused
      | .error .long => .long
      | .error .past => .past
  | .predecessor, .utf8 chars => if chars.length > maxIdLen then .refused else .good
  | .unknown, _ => .unknown
  | _, _ => .refused

def SetsR : P2pmdField × BsonValue → Prop
  | (.r, .int32 _) => True
  | _ => False

-- The section while r has not been set: the bit of the list says that there is one.
structure P2pmdSection.Ready (config : P2pmdSection) : Prop where
  r : .r ∉ config.bv
  held : .successorList ∈ config.bv → config.held = true

theorem ready_fails (config : P2pmdSection) (ready : config.Ready) (stop : ParseStop) : config.fails stop = stop := by
  unfold P2pmdSection.fails
  split
  · rename_i freed
    cases (ready.held freed.1).symm.trans freed.2
  · rfl

-- What a field does to a section without r.
inductive FieldStep (config : P2pmdSection) (field : P2pmdField) (value : BsonValue) : Except ParseStop P2pmdSection → Prop where
  | sets (next : P2pmdSection) (verdict : fieldVerdict field value = .good) (fresh : field ∉ config.bv)
      (bits : next.bv = field :: config.bv) (ready : next.Ready) : FieldStep config field value (.ok next)
  | repeated (verdict : fieldVerdict field value = .good) (set : field ∈ config.bv) : FieldStep config field value (.error .failure)
  | refused (verdict : fieldVerdict field value = .refused) : FieldStep config field value (.error .failure)
  | long (verdict : fieldVerdict field value = .long) (none : .successorList ∉ config.bv) : FieldStep config field value (.error .failure)
  | freed (verdict : fieldVerdict field value = .long) (set : .successorList ∈ config.bv) :
      FieldStep config field value (.error .undefined)
  | past (verdict : fieldVerdict field value = .past) : FieldStep config field value (.error .undefined)
  | unknown (verdict : fieldVerdict field value = .unknown) : FieldStep config field value (.error .exits)

theorem once_step (config changed : P2pmdSection) (field : P2pmdField) (value : BsonValue) (ready : config.Ready) (other : field ≠ .r)
    (verdict : fieldVerdict field value = .good) (bits : changed.bv = config.bv)
    (held : .successorList ∈ field :: config.bv → changed.held = true) : FieldStep config field value (changed.once field) := by
  unfold P2pmdSection.once
  split
  · rename_i set
    rw [bits] at set
    have fails : changed.fails .failure = .failure := by
      refine ready_fails changed ⟨bits ▸ ready.r, fun listed => held ?_⟩ .failure
      exact List.mem_cons_of_mem _ (bits ▸ listed)
    rw [fails]
    exact .repeated verdict set
  · rename_i fresh
    rw [bits] at fresh
    refine .sets _ verdict fresh (congrArg (field :: ·) bits) ⟨?_, fun listed => ?_⟩
    · rw [bits]
      exact fun member => (List.mem_cons.mp member).elim (fun same => other same.symm) ready.r
    · exact held (bits ▸ listed)

theorem list_step (config : P2pmdSection) (elements : List BsonValue) (ready : config.Ready) :
    FieldStep config .successorList (.array elements) (parseList config elements) := by
  have silent : ¬ (P2pmdField.r ∈ config.bv ∧ UInt32.ofNat elements.length ≠ config.nodeInfo.r) := fun both => ready.r both.1
  have verdict : fieldVerdict .successorList (.array elements) =
      match copyEntries (shiftId (UInt32.ofNat elements.length)).toNat 0 elements with
      | .ok _ => .good
      | .error .kind => .refused
      | .error .long => .long
      | .error .past => .past := rfl
  unfold parseList
  rw [if_neg silent]
  dsimp only
  cases copied : copyEntries (shiftId (UInt32.ofNat elements.length)).toNat 0 elements with
  | ok list =>
      rw [copied] at verdict
      exact once_step config _ .successorList _ ready (by decide) verdict rfl fun _ => rfl
  | error stop =>
      rw [copied] at verdict
      cases stop with
      | kind =>
          have fails := ready_fails { config with rList := UInt32.ofNat elements.length, held := true } ⟨ready.r, fun _ => rfl⟩ .failure
          dsimp only
          rw [fails]
          exact .refused verdict
      | long =>
          dsimp only [P2pmdSection.fails]
          by_cases set : P2pmdField.successorList ∈ config.bv
          · rw [if_pos ⟨set, rfl⟩]
            exact .freed verdict set
          · rw [if_neg fun both => set both.1]
            exact .long verdict set
      | past => exact .past verdict

theorem refused_step (config : P2pmdSection) (field : P2pmdField) (value : BsonValue) (ready : config.Ready)
    (verdict : fieldVerdict field value = .refused) (stops : parseP2pmdField config field value = .error (config.fails .failure)) :
    FieldStep config field value (parseP2pmdField config field value) := by
  rw [stops, ready_fails config ready]
  exact .refused verdict

theorem field_step (config : P2pmdSection) (field : P2pmdField) (value : BsonValue) (ready : config.Ready) (noR : ¬ SetsR (field, value)) :
    FieldStep config field value (parseP2pmdField config field value) := by
  have beside : ∀ field : P2pmdField, field ≠ .successorList → P2pmdField.successorList ∈ field :: config.bv → config.held = true := by
    intro field other listed
    exact ready.held ((List.mem_cons.mp listed).resolve_left fun same => other same.symm)
  cases field with
  | mode =>
      cases value with
      | utf8 chars =>
          cases mode : utf8Mode (cstr chars) with
          | none =>
              refine refused_step config _ _ ready ?_ ?_
              · rw [fieldVerdict, if_pos mode]
              · simp only [parseP2pmdField, mode]
          | some status =>
              have verdict : fieldVerdict .mode (.utf8 chars) = .good := by
                rw [fieldVerdict, mode]
                rfl
              simp only [parseP2pmdField, mode]
              exact once_step config _ .mode _ ready (by decide) verdict rfl (beside .mode (by decide))
      | _ => exact refused_step config _ _ ready rfl rfl
  | endpoint =>
      cases value with
      | utf8 chars => exact once_step config _ .endpoint _ ready (by decide) rfl rfl (beside .endpoint (by decide))
      | _ => exact refused_step config _ _ ready rfl rfl
  | r =>
      cases value with
      | int32 r => exact absurd trivial noR
      | _ => exact refused_step config _ _ ready rfl rfl
  | rMax =>
      cases value with
      | int32 rMax => exact once_step config _ .rMax _ ready (by decide) rfl rfl (beside .rMax (by decide))
      | _ => exact refused_step config _ _ ready rfl rfl
  | successorList =>
      cases value with
      | array elements => exact list_step config elements ready
      | _ => exact refused_step config _ _ ready rfl rfl
  | predecessor =>
      cases value with
      | utf8 chars =>
          by_cases long : chars.length > maxIdLen
          · refine refused_step config _ _ ready ?_ ?_
            · rw [fieldVerdict, if_pos long]
            · rw [parseP2pmdField, if_pos long]
          · rw [parseP2pmdField, if_neg long]
            exact once_step config _ .predecessor _ ready (by decide) (by rw [fieldVerdict, if_neg long]) rfl
              (beside .predecessor (by decide))
      | _ => exact refused_step config _ _ ready rfl rfl
  | unknown =>
      have stops : parseP2pmdField config .unknown value = .error .exits := by
        rw [← ready_fails config ready .exits]
        cases value with
        | _ => rfl
      rw [stops]
      refine .unknown ?_
      cases value with
      | _ => rfl

def Verdict (field : P2pmdField × BsonValue) : FieldVerdict := fieldVerdict field.1 field.2

def goodNames (fields : List (P2pmdField × BsonValue)) : List P2pmdField := (fields.filter (Verdict · = .good)).map Prod.fst

theorem good_names_cons (field : P2pmdField × BsonValue) (rest : List (P2pmdField × BsonValue)) (good : Verdict field = .good) :
    goodNames (field :: rest) = field.1 :: goodNames rest := by
  rw [goodNames, List.filter_cons_of_pos (by simpa using good)]
  rfl

theorem mem_good_names (field : P2pmdField × BsonValue) (fields : List (P2pmdField × BsonValue)) (member : field ∈ fields)
    (good : Verdict field = .good) : field.1 ∈ goodNames fields :=
  List.mem_map_of_mem (List.mem_filter.mpr ⟨member, by simpa using good⟩)

-- What the fields of a section without r say about the way their parsing ends.
inductive FieldsEnd (config : P2pmdSection) (fields : List (P2pmdField × BsonValue)) : Except ParseStop P2pmdSection → Prop where
  | all (next : P2pmdSection) (ready : next.Ready) (good : ∀ field ∈ fields, Verdict field = .good)
      (once : (goodNames fields).Nodup) (fresh : ∀ name ∈ goodNames fields, name ∉ config.bv) : FieldsEnd config fields (.ok next)
  | refused (field : P2pmdField × BsonValue) (member : field ∈ fields) (verdict : Verdict field = .refused ∨ Verdict field = .long) :
      FieldsEnd config fields (.error .failure)
  | repeated (twice : (∃ name ∈ goodNames fields, name ∈ config.bv) ∨ ¬ (goodNames fields).Nodup) :
      FieldsEnd config fields (.error .failure)
  | past (field : P2pmdField × BsonValue) (member : field ∈ fields) (verdict : Verdict field = .past) :
      FieldsEnd config fields (.error .undefined)
  | freed (field : P2pmdField × BsonValue) (member : field ∈ fields) (verdict : Verdict field = .long)
      (set : .successorList ∈ config.bv ∨ .successorList ∈ goodNames fields) : FieldsEnd config fields (.error .undefined)
  | unknown (field : P2pmdField × BsonValue) (member : field ∈ fields) (verdict : Verdict field = .unknown) :
      FieldsEnd config fields (.error .exits)

theorem fields_end (config : P2pmdSection) (fields : List (P2pmdField × BsonValue)) (ready : config.Ready)
    (noR : ∀ field ∈ fields, ¬ SetsR field) : FieldsEnd config fields (parseP2pmdFields config fields) := by
  induction fields generalizing config with
  | nil => exact .all config ready (fun _ member => by cases member) List.nodup_nil fun _ member => by cases member
  | cons entry rest ih =>
      obtain ⟨field, value⟩ := entry
      have step := field_step config field value ready (noR _ List.mem_cons_self)
      have here : (field, value) ∈ (field, value) :: rest := List.mem_cons_self
      rw [parseP2pmdFields]
      cases parsed : parseP2pmdField config field value with
      | error stop =>
          rw [parsed] at step
          cases step with
          | repeated verdict set =>
              refine .repeated (Or.inl ⟨field, ?_, set⟩)
              exact mem_good_names _ _ here verdict
          | refused verdict => exact .refused _ here (Or.inl verdict)
          | long verdict _ => exact .refused _ here (Or.inr verdict)
          | freed verdict set => exact .freed _ here verdict (Or.inl set)
          | past verdict => exact .past _ here verdict
          | unknown verdict => exact .unknown _ here verdict
      | ok next =>
          rw [parsed] at step
          cases step with
          | sets _ verdict fresh bits nextReady =>
              have later := ih next nextReady fun other member => noR other (List.mem_cons_of_mem _ member)
              have names := good_names_cons (field, value) rest verdict
              change FieldsEnd config _ (parseP2pmdFields next rest)
              cases ended : parseP2pmdFields next rest with
              | ok final =>
                  rw [ended] at later
                  cases later with
                  | all _ finalReady good once later =>
                      rw [bits] at later
                      refine .all final finalReady ?_ ?_ ?_
                      · intro other member
                        rcases List.mem_cons.mp member with same | member
                        · rw [same]
                          exact verdict
                        · exact good other member
                      · rw [names]
                        exact List.nodup_cons.mpr ⟨fun member => later field member List.mem_cons_self, once⟩
                      · rw [names]
                        intro name member
                        rcases List.mem_cons.mp member with same | member
                        · rw [same]
                          exact fresh
                        · exact fun set => later name member (List.mem_cons_of_mem _ set)
              | error stop =>
                  rw [ended] at later
                  cases later with
                  | refused other member why => exact .refused other (List.mem_cons_of_mem _ member) why
                  | repeated twice =>
                      refine .repeated ?_
                      rw [names]
                      rcases twice with ⟨name, member, set⟩ | twice
                      · rcases List.mem_cons.mp (bits ▸ set) with same | set
                        · refine Or.inr fun once => ?_
                          exact (List.nodup_cons.mp once).1 (same ▸ member)
                        · exact Or.inl ⟨name, List.mem_cons_of_mem _ member, set⟩
                      · exact Or.inr fun once => twice (List.nodup_cons.mp once).2
                  | past other member why => exact .past other (List.mem_cons_of_mem _ member) why
                  | freed other member why set =>
                      refine .freed other (List.mem_cons_of_mem _ member) why ?_
                      rw [names]
                      rcases set with set | listed
                      · rcases List.mem_cons.mp (bits ▸ set) with same | set
                        · exact Or.inr (same ▸ List.mem_cons_self)
                        · exact Or.inl set
                      · exact Or.inr (List.mem_cons_of_mem _ listed)
                  | unknown other member why => exact .unknown other (List.mem_cons_of_mem _ member) why

theorem section_refused (before : SngCfg) (fields : List (P2pmdField × BsonValue)) (noR : ∀ field ∈ fields, ¬ SetsR field) :
    ∃ stop, parseP2pmd before fields = .error stop ∧
      (FieldsEnd { toSngCfg := { before with bv := [] }, held := false } fields (.error stop) ∨
        stop = .exits ∧ (∀ field ∈ fields, Verdict field = .good) ∧ (goodNames fields).Nodup) := by
  have start : P2pmdSection.Ready { toSngCfg := { before with bv := [] }, held := false } :=
    ⟨List.not_mem_nil, fun listed => absurd listed List.not_mem_nil⟩
  have ended := fields_end _ fields start noR
  rw [parseP2pmd]
  cases parsed : parseP2pmdFields { toSngCfg := { before with bv := [] }, held := false } fields with
  | error stop =>
      rw [parsed] at ended
      exact ⟨stop, rfl, Or.inl ended⟩
  | ok next =>
      rw [parsed] at ended
      cases ended with
      | all _ ready good once _ =>
          have missing : ∃ field ∈ magic0, field ∉ next.bv := ⟨.r, by decide, ready.r⟩
          refine ⟨.exits, ?_, Or.inr ⟨rfl, good, once⟩⟩
          change (if _ then _ else _) = _
          rw [if_pos missing]
          rfl

def Reordered (document other : List (String × Bson)) : Prop :=
  List.Forall₂ (fun field moved => field = moved ∨ (field.1 = "p2pmd" ∨ field.1 = "tsd") ∧ field.1 = moved.1 ∧
    ∃ fields shuffled, field.2 = .document fields ∧ moved.2 = .document shuffled ∧ fields.Perm shuffled) document other

-- One outcome, whatever the order and whatever malloc has left.
def OrderFree (document : List (String × Bson)) : Prop :=
  ∃ outcome, outcome ≠ .error .undefined ∧
    ∀ other before, Reordered document other → sngParseDocument before other = outcome

-- Every field exactly once, with its type, and r is the number of entries.
structure WellFormed (fields : List (P2pmdField × BsonValue)) : Prop where
  mode : ∃ chars, fields.filter (·.1 = .mode) = [(.mode, .utf8 chars)]
  endpoint : ∃ chars, fields.filter (·.1 = .endpoint) = [(.endpoint, .utf8 chars)]
  rMax : ∃ value, fields.filter (·.1 = .rMax) = [(.rMax, .int32 value)]
  predecessor : ∃ chars, fields.filter (·.1 = .predecessor) = [(.predecessor, .utf8 chars)]
  counted : ∃ r elements, fields.filter (·.1 = .r) = [(.r, .int32 r)] ∧
    fields.filter (·.1 = .successorList) = [(.successorList, .array elements)] ∧ r.toInt = elements.length

def AcceptsWellFormed (document : List (String × Bson)) : Prop :=
  ∀ fields, p2pmdFields document = some fields → ∀ before, (∃ config, parseP2pmd before fields = .ok config) ↔ WellFormed fields

-- No field sets r, no list is written past its block or freed twice, and the fields either all fail or all pass as far as they go.
structure Settled (fields : List (P2pmdField × BsonValue)) : Prop where
  noR : ∀ field ∈ fields, ¬ SetsR field
  inside : ∀ field ∈ fields, Verdict field ≠ .past
  freed : .successorList ∈ goodNames fields → ∀ field ∈ fields, Verdict field ≠ .long
  alike : (∀ field ∈ fields, Verdict field ≠ .unknown) ∨
    (∀ field ∈ fields, Verdict field = .good ∨ Verdict field = .unknown) ∧ (goodNames fields).Nodup

theorem reordered_same (document : List (String × Bson)) : Reordered document document := by
  induction document with
  | nil => exact .nil
  | cons field rest ih => exact .cons (Or.inl rfl) ih

theorem reordered_fields (document other : List (String × Bson)) (reordered : Reordered document other) :
    (p2pmdFields document = none ∧ p2pmdFields other = none) ∨
      ∃ fields shuffled, p2pmdFields document = some fields ∧ p2pmdFields other = some shuffled ∧ fields.Perm shuffled := by
  unfold p2pmdFields initFind
  induction reordered with
  | nil => exact Or.inl ⟨rfl, rfl⟩
  | cons same _ ih =>
      rename_i field moved rest later _
      obtain ⟨name, value⟩ := field
      obtain ⟨newName, newValue⟩ := moved
      simp only [iterFind]
      rcases same with same | ⟨_, sameName, fields, shuffled, here, there, perm⟩
      · cases same
        by_cases found : name = "p2pmd"
        · rw [if_pos found, if_pos found]
          dsimp only [Option.map]
          split
          · exact Or.inr ⟨_, _, rfl, rfl, List.Perm.refl _⟩
          · exact Or.inl ⟨rfl, rfl⟩
        · rw [if_neg found, if_neg found]
          exact ih
      · dsimp only at sameName here there
        rw [← sameName, here, there]
        by_cases found : name = "p2pmd"
        · rw [if_pos found, if_pos found]
          exact Or.inr ⟨_, _, rfl, rfl, perm.map _⟩
        · rw [if_neg found, if_neg found]
          exact ih

theorem settled_stops (fields : List (P2pmdField × BsonValue)) (settled : Settled fields) :
    ∃ stop, stop ≠ .undefined ∧ ∀ shuffled before, fields.Perm shuffled → parseP2pmd before shuffled = .error stop := by
  obtain ⟨noR, inside, freed, alike⟩ := settled
  have names : ∀ shuffled, fields.Perm shuffled → (goodNames fields).Perm (goodNames shuffled) :=
    fun shuffled perm => (perm.filter _).map _
  by_cases failing : (∃ field ∈ fields, Verdict field = .refused ∨ Verdict field = .long) ∨ ¬ (goodNames fields).Nodup
  · have known : ∀ field ∈ fields, Verdict field ≠ .unknown := by
      rcases alike with known | ⟨passing, once⟩
      · exact known
      · rcases failing with ⟨field, member, refused | long⟩ | twice
        · rcases passing field member with verdict | verdict
          · cases refused.symm.trans verdict
          · cases refused.symm.trans verdict
        · rcases passing field member with verdict | verdict
          · cases long.symm.trans verdict
          · cases long.symm.trans verdict
        · exact absurd once twice
    refine ⟨.failure, by decide, fun shuffled before perm => ?_⟩
    obtain ⟨stop, stops, ended⟩ := section_refused before shuffled fun field member => noR field (perm.mem_iff.mpr member)
    rw [stops]
    rcases ended with ended | ⟨_, good, once⟩
    · cases ended with
      | refused => rfl
      | repeated => rfl
      | past field member verdict => exact absurd verdict (inside field (perm.mem_iff.mpr member))
      | freed field member verdict set =>
          have listed := set.resolve_left List.not_mem_nil
          exact absurd verdict (freed ((names shuffled perm).mem_iff.mpr listed) field (perm.mem_iff.mpr member))
      | unknown field member verdict => exact absurd verdict (known field (perm.mem_iff.mpr member))
    · rcases failing with ⟨field, member, refused | long⟩ | twice
      · cases refused.symm.trans (good field (perm.mem_iff.mp member))
      · cases long.symm.trans (good field (perm.mem_iff.mp member))
      · exact absurd ((names shuffled perm).nodup_iff.mpr once) twice
  · obtain ⟨passing, once⟩ := not_or.mp failing
    have once := Classical.not_not.mp once
    refine ⟨.exits, by decide, fun shuffled before perm => ?_⟩
    obtain ⟨stop, stops, ended⟩ := section_refused before shuffled fun field member => noR field (perm.mem_iff.mpr member)
    rw [stops]
    rcases ended with ended | ⟨exits, _⟩
    · cases ended with
      | refused field member verdict => exact absurd ⟨field, perm.mem_iff.mpr member, verdict⟩ passing
      | repeated twice =>
          rcases twice with ⟨name, _, set⟩ | twice
          · exact absurd set List.not_mem_nil
          · exact absurd ((names shuffled perm).nodup_iff.mp once) twice
      | past field member verdict => exact absurd verdict (inside field (perm.mem_iff.mpr member))
      | freed field member verdict _ => exact absurd ⟨field, perm.mem_iff.mpr member, Or.inr verdict⟩ passing
      | unknown => rfl
    · rw [exits]

theorem document_stops (document : List (String × Bson)) (before : SngCfg) (fields : List (P2pmdField × BsonValue)) (stop : ParseStop)
    (found : p2pmdFields document = some fields) (stops : parseP2pmd before fields = .error stop) :
    sngParseDocument before document = .error stop := by
  rw [sngParseDocument, found]
  dsimp only
  rw [stops]
  rfl

theorem settled_order_free (document : List (String × Bson))
    (settled : ∀ fields, p2pmdFields document = some fields → Settled fields) : OrderFree document := by
  cases found : p2pmdFields document with
  | none =>
      refine ⟨.error .failure, by simp, fun other before reordered => ?_⟩
      rcases reordered_fields document other reordered with ⟨_, none_⟩ | ⟨fields, _, here, _⟩
      · rw [sngParseDocument, none_]
      · cases found.symm.trans here
  | some fields =>
      obtain ⟨stop, defined, stops⟩ := settled_stops fields (settled fields found)
      refine ⟨.error stop, fun same => defined (by cases same; rfl), fun other before reordered => ?_⟩
      rcases reordered_fields document other reordered with ⟨none_, _⟩ | ⟨_, shuffled, here, there, perm⟩
      · cases found.symm.trans none_
      · cases found.symm.trans here
        exact document_stops other before shuffled stop there (stops shuffled before perm)

theorem well_formed_sets_r (fields : List (P2pmdField × BsonValue)) (well : WellFormed fields) : ∃ field ∈ fields, SetsR field := by
  obtain ⟨r, elements, one, _⟩ := well.counted
  have member : ((.r, .int32 r) : P2pmdField × BsonValue) ∈ fields.filter (·.1 = .r) := by
    rw [one]
    exact List.mem_singleton.mpr rfl
  exact ⟨_, (List.mem_filter.mp member).1, trivial⟩

theorem settled_accepts (document : List (String × Bson))
    (settled : ∀ fields, p2pmdFields document = some fields → Settled fields) : AcceptsWellFormed document := by
  intro fields found before
  have noR := (settled fields found).noR
  obtain ⟨stop, stops, _⟩ := section_refused before fields noR
  constructor
  · rintro ⟨config, parsed⟩
    cases stops.symm.trans parsed
  · intro well
    obtain ⟨field, member, sets⟩ := well_formed_sets_r fields well
    exact absurd sets (noR field member)

theorem reordered_reaches (document : List (String × Bson)) (fields shuffled : List (P2pmdField × BsonValue))
    (found : p2pmdFields document = some fields) (perm : fields.Perm shuffled) :
    ∃ other, Reordered document other ∧ p2pmdFields other = some shuffled := by
  induction document with
  | nil => cases found
  | cons field rest ih =>
      obtain ⟨name, value⟩ := field
      by_cases here : name = "p2pmd"
      · simp only [p2pmdFields, initFind, iterFind, if_pos here, Option.map] at found
        split at found
        · rename_i raw is
          cases is
          cases found
          have images : List.Forall₂ (fun (image : P2pmdField × BsonValue) (field : String × Bson) =>
              image = (.ofKey field.1, field.2.value)) (raw.map fun field => (.ofKey field.1, field.2.value)) raw := by
            rw [List.forall₂_map_left_iff]
            exact List.forall₂_same.mpr fun _ _ => rfl
          obtain ⟨source, image, moved⟩ := List.perm_comp_forall₂ perm.symm images
          refine ⟨(name, .document source) :: rest, .cons (Or.inr ⟨Or.inl here, rfl, raw, source, rfl, rfl, moved.symm⟩) ?_, ?_⟩
          · exact reordered_same rest
          · simp only [p2pmdFields, initFind, iterFind, if_pos here, Option.map]
            have same : shuffled = source.map fun field => (P2pmdField.ofKey field.1, field.2.value) := by
              rw [← List.forall₂_eq_eq_eq, List.forall₂_map_right_iff]
              exact image
            rw [same]
        · cases found
      · have later : p2pmdFields rest = some fields := by
          simpa only [p2pmdFields, initFind, iterFind, if_neg here] using found
        obtain ⟨other, reordered, reached⟩ := ih later
        refine ⟨(name, value) :: other, .cons (Or.inl rfl) reordered, ?_⟩
        simpa only [p2pmdFields, initFind, iterFind, if_neg here] using reached

-- A section of which malloc has left the given _r_list.
def strayConfig (rList : UInt32) : SngCfg where
  p2pmdMode := .joining
  p2pmdEndpoint := []
  nodeInfo := { successorList := [], r := 0, rMax := 0, predecessor := [], successor := [], tempPredecessor := [], tempSuccessor := [] }
  bv := []
  rList := rList

def startSection (before : SngCfg) : P2pmdSection := { toSngCfg := { before with bv := [] }, held := false }

theorem start_ready (before : SngCfg) : (startSection before).Ready :=
  ⟨List.not_mem_nil, fun listed => absurd listed List.not_mem_nil⟩

theorem first_stops (before : SngCfg) (first : P2pmdField × BsonValue) (rest : List (P2pmdField × BsonValue)) (stop : ParseStop)
    (stops : parseP2pmdField (startSection before) first.1 first.2 = .error stop) : parseP2pmd before (first :: rest) = .error stop := by
  rw [parseP2pmd, parseP2pmdFields]
  change (parseP2pmdField (startSection before) first.1 first.2 >>= _) >>= _ = _
  rw [stops]
  rfl

theorem second_stops (before : SngCfg) (first second : P2pmdField × BsonValue) (rest : List (P2pmdField × BsonValue)) (stop : ParseStop)
    (next : P2pmdSection) (sets : parseP2pmdField (startSection before) first.1 first.2 = .ok next)
    (stops : parseP2pmdField next second.1 second.2 = .error stop) : parseP2pmd before (first :: second :: rest) = .error stop := by
  rw [parseP2pmd, parseP2pmdFields]
  change (parseP2pmdField (startSection before) first.1 first.2 >>= _) >>= _ = _
  rw [sets]
  change (parseP2pmdField next second.1 second.2 >>= _) >>= _ = _
  rw [stops]
  rfl

-- What a field ends the parsing with, by its verdict.
def stopOf (config : P2pmdSection) (field : P2pmdField) : FieldVerdict → Option ParseStop
  | .good => if field ∈ config.bv then some .failure else none
  | .refused => some .failure
  | .long => if .successorList ∈ config.bv then some .undefined else some .failure
  | .past => some .undefined
  | .unknown => some .exits

theorem step_stops (config : P2pmdSection) (field : P2pmdField) (value : BsonValue) (result : Except ParseStop P2pmdSection)
    (step : FieldStep config field value result) (stop : ParseStop)
    (stops : stopOf config field (fieldVerdict field value) = some stop) : result = .error stop := by
  cases step with
  | sets next verdict fresh =>
      rw [verdict, stopOf, if_neg fresh] at stops
      cases stops
  | repeated verdict set =>
      rw [verdict, stopOf, if_pos set] at stops
      cases stops
      rfl
  | refused verdict =>
      rw [verdict] at stops
      cases stops
      rfl
  | long verdict absent =>
      rw [verdict, stopOf, if_neg absent] at stops
      cases stops
      rfl
  | freed verdict set =>
      rw [verdict, stopOf, if_pos set] at stops
      cases stops
      rfl
  | past verdict =>
      rw [verdict] at stops
      cases stops
      rfl
  | unknown verdict =>
      rw [verdict] at stops
      cases stops
      rfl

theorem step_sets (config : P2pmdSection) (field : P2pmdField) (value : BsonValue) (result : Except ParseStop P2pmdSection)
    (step : FieldStep config field value result) (verdict : fieldVerdict field value = .good) (fresh : field ∉ config.bv) :
    ∃ next, result = .ok next ∧ next.bv = field :: config.bv ∧ next.Ready := by
  cases step with
  | sets next _ _ bits ready => exact ⟨next, rfl, bits, ready⟩
  | repeated _ set => exact absurd set fresh
  | refused other => cases verdict.symm.trans other
  | long other => cases verdict.symm.trans other
  | freed other => cases verdict.symm.trans other
  | past other => cases verdict.symm.trans other
  | unknown other => cases verdict.symm.trans other

theorem first_ends (before : SngCfg) (first : P2pmdField × BsonValue) (rest : List (P2pmdField × BsonValue)) (noR : ¬ SetsR first)
    (stop : ParseStop) (stops : stopOf (startSection before) first.1 (Verdict first) = some stop) :
    parseP2pmd before (first :: rest) = .error stop :=
  first_stops before first rest stop
    (step_stops _ _ _ _ (field_step (startSection before) first.1 first.2 (start_ready before) noR) stop stops)

theorem second_ends (before : SngCfg) (first second : P2pmdField × BsonValue) (rest : List (P2pmdField × BsonValue))
    (noR : ¬ SetsR first) (noRBehind : ¬ SetsR second) (good : Verdict first = .good) (stop : ParseStop)
    (stops : ∀ next : P2pmdSection, next.bv = [first.1] → stopOf next second.1 (Verdict second) = some stop) :
    parseP2pmd before (first :: second :: rest) = .error stop := by
  obtain ⟨next, sets, bits, ready⟩ :=
    step_sets _ _ _ _ (field_step (startSection before) first.1 first.2 (start_ready before) noR) good List.not_mem_nil
  exact second_stops before first second rest stop next sets
    (step_stops _ _ _ _ (field_step next second.1 second.2 ready noRBehind) stop (stops next bits))

-- r first: the bit of the list is set, and its pointer is whatever malloc has left.
theorem first_sets_r (value : Int32) (rest : List (P2pmdField × BsonValue)) :
    parseP2pmd (strayConfig (value.toUInt32 + 1)) ((.r, .int32 value) :: rest) = .error .undefined := by
  refine first_stops _ _ rest .undefined ?_
  have stray : (startSection (strayConfig (value.toUInt32 + 1))).rList ≠ value.toUInt32 := by
    intro same
    simp [startSection, strayConfig] at same
  simp only [parseP2pmdField]
  rw [if_pos stray]
  rfl

theorem order_decides (document : List (String × Bson)) (outcome : Except ParseStop SngConfig)
    (same : ∀ other before, Reordered document other → sngParseDocument before other = outcome)
    (fields shuffled : List (P2pmdField × BsonValue)) (found : p2pmdFields document = some fields) (perm : fields.Perm shuffled)
    (before : SngCfg) (stop : ParseStop) (stops : parseP2pmd before shuffled = .error stop) : outcome = .error stop := by
  obtain ⟨other, reordered, reached⟩ := reordered_reaches document fields shuffled found perm
  exact (same other before reordered).symm.trans (document_stops other before shuffled stop reached stops)

theorem perm_first (fields : List (P2pmdField × BsonValue)) (first : P2pmdField × BsonValue) (member : first ∈ fields) :
    ∃ rest, fields.Perm (first :: rest) := by
  obtain ⟨front, behind, same⟩ := List.append_of_mem member
  exact ⟨front ++ behind, same ▸ List.perm_middle⟩

theorem perm_second (fields : List (P2pmdField × BsonValue)) (first second : P2pmdField × BsonValue) (member : first ∈ fields)
    (other : second ∈ fields) (differ : second ≠ first) : ∃ rest, fields.Perm (first :: second :: rest) := by
  obtain ⟨rest, perm⟩ := perm_first fields first member
  obtain ⟨later, behind⟩ := perm_first rest second ((List.mem_cons.mp (perm.mem_iff.mp other)).resolve_left differ)
  exact ⟨later, perm.trans (behind.cons first)⟩

theorem mem_good (fields : List (P2pmdField × BsonValue)) (name : P2pmdField) (member : name ∈ goodNames fields) :
    ∃ field ∈ fields, Verdict field = .good ∧ field.1 = name := by
  obtain ⟨field, kept, same⟩ := List.mem_map.mp member
  obtain ⟨member, good⟩ := List.mem_filter.mp kept
  exact ⟨field, member, by simpa using good, same⟩

theorem perm_repeated (fields : List (P2pmdField × BsonValue)) (twice : ¬ (goodNames fields).Nodup) :
    ∃ first second rest, fields.Perm (first :: second :: rest) ∧ Verdict first = .good ∧ Verdict second = .good ∧
      second.1 = first.1 := by
  rw [List.nodup_iff_sublist] at twice
  push Not at twice
  obtain ⟨name, listed⟩ := twice
  obtain ⟨pair, kept, same⟩ := List.sublist_map_iff.mp listed
  obtain ⟨first, tail, whole, one, same⟩ := List.map_eq_cons_iff.mp same.symm
  obtain ⟨second, none_, behind, two, same⟩ := List.map_eq_cons_iff.mp same
  rw [List.map_eq_nil_iff.mp same] at behind
  rw [whole, behind] at kept
  obtain ⟨rest, perm⟩ := (kept.trans List.filter_sublist).exists_perm_append
  have good : ∀ field ∈ [first, second], Verdict field = .good := by
    intro field member
    simpa using (List.mem_filter.mp (kept.subset member)).2
  exact ⟨first, second, rest, perm, good first (by simp), good second (by simp), two.trans one.symm⟩

theorem order_free_settled (document : List (String × Bson)) (free : OrderFree document) (fields : List (P2pmdField × BsonValue))
    (found : p2pmdFields document = some fields) : Settled fields := by
  obtain ⟨outcome, defined, same⟩ := free
  have decides := order_decides document outcome same fields
  have undefined_ : ∀ shuffled before, fields.Perm shuffled → parseP2pmd before shuffled ≠ .error .undefined :=
    fun shuffled before perm stops => defined (decides shuffled found perm before .undefined stops)
  have differ : ∀ (first second : List (P2pmdField × BsonValue)), fields.Perm first → fields.Perm second →
      parseP2pmd (strayConfig 0) first = .error .failure → parseP2pmd (strayConfig 0) second ≠ .error .exits := by
    intro first second one two fails exits
    have clash := (decides first found one _ _ fails).symm.trans (decides second found two _ _ exits)
    cases clash
  have noR : ∀ field ∈ fields, ¬ SetsR field := by
    rintro ⟨name, value⟩ member sets
    obtain ⟨rest, perm⟩ := perm_first fields _ member
    cases name <;> cases value <;> first | exact sets.elim | skip
    exact undefined_ _ _ perm (first_sets_r _ rest)
  refine ⟨noR, fun field member past => ?_, fun listed field member long => ?_, ?_⟩
  · obtain ⟨rest, perm⟩ := perm_first fields field member
    exact undefined_ _ (strayConfig 0) perm (first_ends _ field rest (noR field member) .undefined (by rw [past]; rfl))
  · obtain ⟨list, here, good, name⟩ := mem_good fields _ listed
    have other : field ≠ list := fun same => by
      rw [same, good] at long
      cases long
    obtain ⟨rest, perm⟩ := perm_second fields list field here member other
    refine undefined_ _ (strayConfig 0) perm
      (second_ends _ list field rest (noR list here) (noR field member) good .undefined fun next bits => ?_)
    rw [long, stopOf, bits, name, if_pos (List.mem_singleton.mpr rfl)]
  · by_cases known : ∀ field ∈ fields, Verdict field ≠ .unknown
    · exact Or.inl known
    · push Not at known
      obtain ⟨unknown, member, verdict⟩ := known
      obtain ⟨rest, perm⟩ := perm_first fields unknown member
      have exits := first_ends (strayConfig 0) unknown rest (noR unknown member) .exits (by rw [verdict]; rfl)
      refine Or.inr ⟨fun field here => ?_, ?_⟩
      · obtain ⟨others, first⟩ := perm_first fields field here
        have stops : ∀ stop, stopOf (startSection (strayConfig 0)) field.1 (Verdict field) = some stop →
            parseP2pmd (strayConfig 0) (field :: others) = .error stop :=
          first_ends (strayConfig 0) field others (noR field here)
        cases is : Verdict field with
        | good => exact Or.inl rfl
        | unknown => exact Or.inr rfl
        | refused => exact absurd exits (differ _ _ first perm (stops .failure (by rw [is]; rfl)))
        | long => exact absurd exits (differ _ _ first perm (stops .failure (by rw [is]; rfl)))
        | past => exact absurd (stops .undefined (by rw [is]; rfl)) (undefined_ _ _ first)
      · by_contra twice
        obtain ⟨first, second, others, both, good, again, name⟩ := perm_repeated fields twice
        have here := noR first (both.mem_iff.mpr List.mem_cons_self)
        have there := noR second (both.mem_iff.mpr (List.mem_cons_of_mem _ List.mem_cons_self))
        have fails := second_ends (strayConfig 0) first second others here there good .failure fun next bits => by
          rw [again, stopOf, bits, name, if_pos (List.mem_singleton.mpr rfl)]
        exact differ _ _ both perm fails exits

-- Order does not matter, and a p2pmd section is accepted just when it is well formed, if and only if there is none or its fields
-- are settled.
theorem order_matters_iff (document : List (String × Bson)) :
    (OrderFree document ∧ AcceptsWellFormed document) ↔ ∀ fields, p2pmdFields document = some fields → Settled fields :=
  ⟨fun both fields found => order_free_settled document both.1 fields found,
    fun settled => ⟨settled_order_free document settled, settled_accepts document settled⟩⟩

-- A configuration with r before the list.
def sampleSection : List (P2pmdField × BsonValue) :=
  [(.mode, .utf8 [109, 101, 109, 98, 101, 114]), (.endpoint, .utf8 [80]), (.r, .int32 1), (.successorList, .array [.utf8 [83]]),
    (.predecessor, .utf8 [79]), (.rMax, .int32 5)]

def sampleDocument : List (String × Bson) :=
  [("p2pmd", .document [("mode", .utf8 [109, 101, 109, 98, 101, 114]), ("endpoint", .utf8 [80]), ("r", .int32 1),
      ("successor_list", .array [.utf8 [83]]), ("predecessor", .utf8 [79]), ("r_max", .int32 5)]),
    ("tsd", .document [("endpoint", .utf8 [81]), ("ipc", .utf8 [82]), ("replication_factor", .int32 1)]),
    ("spaces", .array [])]

theorem r_before_list_refused : ¬ ∀ document, OrderFree document ∧ AcceptsWellFormed document := by
  intro claim
  have found : p2pmdFields sampleDocument = some sampleSection := rfl
  have well : WellFormed sampleSection :=
    ⟨⟨_, rfl⟩, ⟨_, rfl⟩, ⟨_, rfl⟩, ⟨_, rfl⟩, _, _, rfl, rfl, by decide⟩
  obtain ⟨config, accepted⟩ := ((claim sampleDocument).2 sampleSection found (strayConfig 0)).mpr well
  have refused : parseP2pmd (strayConfig 0) sampleSection = .error .undefined := rfl
  cases refused.symm.trans accepted

end Synergy
