import Synergy.P2pm

set_option autoImplicit false

namespace Synergy

-- A field of the p2pmd section, as far as sng_parse_config tells its type.
inductive BsonValue where
  | utf8 (chars : Bytes)
  | int32 (value : Int32)
  | array (elements : List BsonValue)
  | other

inductive P2pmdField where
  | mode | endpoint | r | rMax | successorList | predecessor | unknown
deriving DecidableEq, Repr

-- What the p2pmd section sets in sng_cfg_t. bv: the fields whose bit is set. rList: _r_list.
structure SngCfg where
  p2pmdMode : P2pmStatus
  p2pmdEndpoint : Bytes
  nodeInfo : P2pmNodeInfo
  bv : List P2pmdField
  rList : UInt32

def magic0 : List P2pmdField := [.mode, .endpoint, .r, .rMax, .successorList, .predecessor]

-- Every case of the section ends so.
def setOnce (config : SngCfg) (field : P2pmdField) : Option SngCfg :=
  if field ∈ config.bv then none else some { config with bv := field :: config.bv }

-- An address in the block of P2PM_MAX_ID_LEN zeros that it is copied to.
def addressSlot (chars : Bytes) : Bytes := chars ++ List.replicate (maxIdLen - chars.length) 0

-- The entries, each in its slot.
def parseEntries : List BsonValue → Option Bytes
  | [] => some []
  | .utf8 chars :: rest => if chars.length > maxIdLen then none else (parseEntries rest).map (addressSlot chars ++ ·)
  | _ :: _ => none

def utf8Mode : Bytes → Option P2pmStatus
  | [109, 101, 109, 98, 101, 114] => some .member
  | [115, 116, 97, 110, 100, 97, 108, 111, 110, 101] => some .joining
  | _ => none

-- One field of the section; none where it fails, exits or writes past the block it has allocated.
def parseField (config : SngCfg) : P2pmdField → BsonValue → Option SngCfg
  | .mode, .utf8 chars => do
      let mode ← utf8Mode (cstr chars)
      setOnce { config with p2pmdMode := mode } .mode
  | .endpoint, .utf8 chars => setOnce { config with p2pmdEndpoint := cstr chars } .endpoint
  | .r, .int32 r =>
      -- _bvset(sng_config->bv, _BVSUCCLIST) sets the bit it is to test
      let config := { config with
        nodeInfo := { config.nodeInfo with r := r.toUInt32 }
        bv := .successorList :: config.bv }
      if config.rList ≠ config.nodeInfo.r then none else setOnce config .r
  | .rMax, .int32 rMax => setOnce { config with nodeInfo := { config.nodeInfo with rMax := rMax.toUInt32 } } .rMax
  | .successorList, .array elements => do
      let config := { config with rList := UInt32.ofNat elements.length }
      if P2pmdField.r ∈ config.bv ∧ config.rList ≠ config.nodeInfo.r then none
      else if (shiftId config.rList).toNat < elements.length * maxIdLen then none
      else
        let list ← parseEntries elements
        setOnce { config with nodeInfo := { config.nodeInfo with successorList := list } } .successorList
  | .predecessor, .utf8 chars =>
      if chars.length > maxIdLen then none
      else setOnce { config with nodeInfo := { config.nodeInfo with predecessor := cstr chars } } .predecessor
  | _, _ => none

def parseFields (config : SngCfg) : List (P2pmdField × BsonValue) → Option SngCfg
  | [] => some config
  | (field, value) :: rest => (parseField config field value).bind fun config => parseFields config rest

-- sng_parse_config for its p2pmd section; before is what malloc has left in *sng_config. The first address becomes the
-- successor, where it and its NUL fit.
def sngParseConfig (before : SngCfg) (fields : List (P2pmdField × BsonValue)) : Option SngCfg := do
  let config ← parseFields { before with bv := [] } fields
  if ∃ field ∈ magic0, field ∉ config.bv then none
  else if 0 ∉ config.nodeInfo.successorList ∨ maxIdLen ≤ (cstr config.nodeInfo.successorList).length then none
  else some { config with
    nodeInfo := { config.nodeInfo with
      successor := cstr config.nodeInfo.successorList
      tempPredecessor := []
      tempSuccessor := [] }
    bv := [] }

theorem entries_length (elements : List BsonValue) (list : Bytes) (parsed : parseEntries elements = some list) :
    list.length = elements.length * maxIdLen := by
  induction elements generalizing list with
  | nil =>
      cases parsed
      rw [List.length_nil, List.length_nil, Nat.zero_mul]
  | cons element rest ih =>
      cases element with
      | utf8 chars =>
          unfold parseEntries at parsed
          split at parsed
          · cases parsed
          · rename_i fits
            obtain ⟨tail, listed, same⟩ := Option.map_eq_some_iff.mp parsed
            subst same
            rw [List.length_append, ih tail listed, addressSlot, List.length_append, List.length_replicate, List.length_cons,
              Nat.succ_mul]
            omega
      | int32 value => cases parsed
      | array elements => cases parsed
      | other => cases parsed

-- The list has been allocated for the entries it has.
structure Listed (config : SngCfg) : Prop where
  bit : P2pmdField.successorList ∈ config.bv
  size : config.nodeInfo.successorList.length = config.rList.toNat * maxIdLen
  counted : P2pmdField.r ∈ config.bv → config.rList = config.nodeInfo.r

theorem set_once_config (config next : SngCfg) (field : P2pmdField) (done : setOnce config field = some next) :
    field ∉ config.bv ∧ next = { config with bv := field :: config.bv } := by
  unfold setOnce at done
  split at done
  · cases done
  · rename_i missing
    exact ⟨missing, (Option.some.inj done).symm⟩

theorem listed_beside (config changed next : SngCfg) (field : P2pmdField) (listed : Listed config)
    (done : setOnce changed field = some next) (other : field ≠ .r) (bits : changed.bv = config.bv)
    (list : changed.nodeInfo.successorList = config.nodeInfo.successorList) (count : changed.rList = config.rList)
    (r : changed.nodeInfo.r = config.nodeInfo.r) : Listed next := by
  obtain ⟨_, same⟩ := set_once_config changed next field done
  subst same
  refine ⟨?_, ?_, fun member => ?_⟩
  · rw [bits]
    exact List.mem_cons_of_mem _ listed.bit
  · rw [list, count]
    exact listed.size
  · rw [bits] at member
    rw [count, r]
    exact listed.counted ((List.mem_cons.mp member).resolve_left fun same => other same.symm)

theorem list_parsed (config next : SngCfg) (value : BsonValue) (done : parseField config .successorList value = some next) :
    P2pmdField.successorList ∉ config.bv ∧ Listed next := by
  cases value with
  | utf8 chars => cases done
  | int32 value => cases done
  | other => cases done
  | array elements =>
      simp only [parseField] at done
      split at done
      · cases done
      · rename_i equal
        split at done
        · cases done
        · rename_i allocated
          obtain ⟨list, entries, done⟩ := Option.bind_eq_some_iff.mp done
          obtain ⟨missing, same⟩ := set_once_config _ next _ done
          subst same
          refine ⟨missing, List.mem_cons_self, ?_, fun member => ?_⟩
          · have size := entries_length elements list entries
            have positive : 0 < maxIdLen := by decide
            have bound := Nat.le_trans (Nat.not_lt.mp allocated) (shift_id_bound (UInt32.ofNat elements.length))
            have counted : (UInt32.ofNat elements.length).toNat ≤ elements.length := by
              rw [UInt32.toNat_ofNat']
              exact Nat.mod_le _ _
            have fewer := Nat.le_of_mul_le_mul_right bound positive
            exact size.trans (congrArg (· * maxIdLen) (Nat.le_antisymm fewer counted))
          · have set : P2pmdField.r ∈ config.bv := (List.mem_cons.mp member).resolve_left fun same => by cases same
            by_contra different
            exact equal ⟨set, different⟩

theorem field_parsed (config next : SngCfg) (field : P2pmdField) (value : BsonValue) (listed : Listed config)
    (done : parseField config field value = some next) : Listed next := by
  cases field with
  | successorList => exact absurd listed.bit (list_parsed config next value done).1
  | unknown => cases value with
    | _ => cases done
  | mode =>
      cases value with
      | utf8 chars =>
          obtain ⟨mode, _, done⟩ := Option.bind_eq_some_iff.mp done
          exact listed_beside config _ next .mode listed done (fun same => by cases same) rfl rfl rfl rfl
      | int32 value => cases done
      | array elements => cases done
      | other => cases done
  | endpoint =>
      cases value with
      | utf8 chars => exact listed_beside config _ next .endpoint listed done (fun same => by cases same) rfl rfl rfl rfl
      | int32 value => cases done
      | array elements => cases done
      | other => cases done
  | rMax =>
      cases value with
      | int32 value => exact listed_beside config _ next .rMax listed done (fun same => by cases same) rfl rfl rfl rfl
      | utf8 chars => cases done
      | array elements => cases done
      | other => cases done
  | predecessor =>
      cases value with
      | utf8 chars =>
          simp only [parseField] at done
          split at done
          · cases done
          · exact listed_beside config _ next .predecessor listed done (fun same => by cases same) rfl rfl rfl rfl
      | int32 value => cases done
      | array elements => cases done
      | other => cases done
  | r =>
      cases value with
      | int32 value =>
          simp only [parseField] at done
          split at done
          · cases done
          · rename_i equal
            obtain ⟨_, same⟩ := set_once_config _ next _ done
            subst same
            exact ⟨List.mem_cons_of_mem _ List.mem_cons_self, listed.size, fun _ => Classical.not_not.mp equal⟩
      | utf8 chars => cases done
      | array elements => cases done
      | other => cases done

theorem fields_parsed (fields : List (P2pmdField × BsonValue)) (config final : SngCfg)
    (given : Listed config ∨ P2pmdField.successorList ∈ fields.map Prod.fst) (done : parseFields config fields = some final) :
    Listed final := by
  induction fields generalizing config with
  | nil =>
      cases done
      exact given.resolve_right fun member => by cases member
  | cons entry rest ih =>
      obtain ⟨field, value⟩ := entry
      obtain ⟨next, parsed, done⟩ := Option.bind_eq_some_iff.mp done
      refine ih next ?_ done
      rcases given with listed | member
      · exact Or.inl (field_parsed config next field value listed parsed)
      · rcases List.mem_cons.mp member with same | later
        · have this : field = .successorList := same.symm
          subst this
          exact Or.inl (list_parsed config next value parsed).2
        · exact Or.inr later

theorem parsed_list (before config : SngCfg) (fields : List (P2pmdField × BsonValue))
    (given : P2pmdField.successorList ∈ fields.map Prod.fst) (accepted : sngParseConfig before fields = some config) :
    config.nodeInfo.successorList.length = config.nodeInfo.r.toNat * maxIdLen := by
  obtain ⟨parsed, done, accepted⟩ := Option.bind_eq_some_iff.mp accepted
  have listed := fields_parsed fields _ parsed (Or.inr given) done
  split at accepted
  · cases accepted
  · rename_i all
    split at accepted
    · cases accepted
    · cases accepted
      have set : P2pmdField.r ∈ parsed.bv := by
        by_contra missing
        exact all ⟨.r, by decide, missing⟩
      have counted := listed.counted set
      exact counted ▸ listed.size

end Synergy
