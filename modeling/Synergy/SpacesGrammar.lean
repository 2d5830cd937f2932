import Synergy.Document

set_option autoImplicit false

namespace Synergy

inductive SpaceTsd where
  | token
  | direct (address : Bytes)

-- What the documentation lets an element of the spaces array say.
structure SpaceEntry where
  name : Bytes
  id : Int32
  mode : TsMode
  tsd : SpaceTsd
  nameFits : name.length ≤ 25
  addressFits : ∀ address, tsd = .direct address → address.length ≤ maxIdLen

def TsMode.chars : TsMode → Bytes
  | .master => [109, 97, 115, 116, 101, 114]
  | .worker => [119, 111, 114, 107, 101, 114]
  | .p2p => [112, 50, 112]

def SpaceTsd.elements : SpaceTsd → List Bson
  | .token => [.utf8 [116, 111, 107, 101, 110]]
  | .direct address => [.utf8 [100, 105, 114, 101, 99, 116], .utf8 address]

def SpaceEntry.fields (entry : SpaceEntry) : List (String × Bson) :=
  [("name", .utf8 entry.name), ("id", .int32 entry.id), ("mode", .utf8 entry.mode.chars), ("tsd_mode", .array entry.tsd.elements)]

def Describes (element : Bson) (entry : SpaceEntry) : Prop := ∃ fields, element = .document fields ∧ fields.Perm entry.fields

def SpaceTsd.HeldBy (space : SpaceSection) : SpaceTsd → Prop
  | .token => space.tsdMode = some .token
  | .direct address => space.tsdMode = some .direct ∧ space.directEndpoint = some address

structure SpaceEntry.HeldBy (space : SpaceSection) (entry : SpaceEntry) : Prop where
  name : space.name = some entry.name
  id : space.id = some entry.id
  mode : space.tsMode = some entry.mode
  tsd : entry.tsd.HeldBy space

-- The spaces section is accepted just when it follows the grammar, and then each space holds what its element says.
structure AcceptsGrammar (entries : List Bson) : Prop where
  accepts : (∃ spaces, parseSpaces entries = .ok spaces) ↔ ∃ said, List.Forall₂ Describes entries said
  counts : ∀ spaces, parseSpaces entries = .ok spaces → spaces.length = entries.length
  held : ∀ spaces said, parseSpaces entries = .ok spaces → List.Forall₂ Describes entries said →
    List.Forall₂ SpaceEntry.HeldBy spaces said

-- tsd_mode as streq and bson_iter_utf8 let it pass: up to the first NUL, and with any value behind "direct" but a long string.
inductive LooseTsd : List Bson → Prop where
  | token (chars : Bytes) (is : cstr chars = [116, 111, 107, 101, 110]) : LooseTsd [.utf8 chars]
  | direct (chars : Bytes) (address : Bson) (is : cstr chars = [100, 105, 114, 101, 99, 116])
      (fits : ∀ master, address = .utf8 master → master.length ≤ maxIdLen) : LooseTsd [.utf8 chars, address]

-- An element as sng_parse_config lets it pass.
structure LooseEntry where
  name : Bytes
  id : Int32
  mode : Bytes
  tsd : List Bson
  nameFits : name.length ≤ 25
  modeKnown : ∃ known : TsMode, cstr mode = known.chars
  tsdLoose : LooseTsd tsd

def LooseEntry.fields (entry : LooseEntry) : List (String × Bson) :=
  [("name", .utf8 entry.name), ("id", .int32 entry.id), ("mode", .utf8 entry.mode), ("tsd_mode", .array entry.tsd)]

def LooseElement (element : Bson) : Prop := ∃ fields, ∃ entry : LooseEntry, element = .document fields ∧ fields.Perm entry.fields

def Bson.CleanString : Bson → Prop
  | .utf8 chars => NulFree chars
  | _ => False

-- No string of a field has a NUL in it, and an array holds such strings only.
def Bson.Clean : Bson → Prop
  | .utf8 chars => NulFree chars
  | .array elements => ∀ element ∈ elements, element.CleanString
  | _ => True

def CleanElement (element : Bson) : Prop := ∀ fields, element = .document fields → ∀ field ∈ fields, field.2.Clean

inductive SpaceValue where
  | name (chars : Bytes)
  | id (number : Int32)
  | mode (role : TsMode)
  | token
  | direct (endpoint : Bytes)

def SpaceValue.field : SpaceValue → SpaceField
  | .name _ => .name
  | .id _ => .id
  | .mode _ => .mode
  | .token => .tsdMode
  | .direct _ => .tsdMode

def SpaceValue.put (space : SpaceSection) : SpaceValue → SpaceSection
  | .name chars => { space with name := some chars }
  | .id number => { space with id := some number }
  | .mode role => { space with tsMode := some role }
  | .token => { space with tsdMode := some .token }
  | .direct endpoint => { space with tsdMode := some .direct, directEndpoint := some endpoint }

def SpaceValue.Shown (space : SpaceSection) : SpaceValue → Prop
  | .name chars => space.name = some chars
  | .id number => space.id = some number
  | .mode role => space.tsMode = some role
  | .token => space.tsdMode = some .token
  | .direct endpoint => space.tsdMode = some .direct ∧ space.directEndpoint = some endpoint

-- How sng_parse_config reads a field.
inductive Reads : String × Bson → SpaceValue → Prop where
  | name (chars : Bytes) (fits : chars.length ≤ 25) : Reads ("name", .utf8 chars) (.name (cstr chars))
  | id (number : Int32) : Reads ("id", .int32 number) (.id number)
  | mode (chars : Bytes) (role : TsMode) (known : utf8TsMode (cstr chars) = some role) : Reads ("mode", .utf8 chars) (.mode role)
  | token (chars : Bytes) (known : utf8TsdMode (cstr chars) = some .token) : Reads ("tsd_mode", .array [.utf8 chars]) .token
  | direct (chars : Bytes) (address : Bson) (known : utf8TsdMode (cstr chars) = some .direct)
      (fits : ∀ master, address = .utf8 master → master.length ≤ maxIdLen) :
      Reads ("tsd_mode", .array [.utf8 chars, address]) (.direct (address.dupUtf8.getD []))

theorem put_bits (space : SpaceSection) (value : SpaceValue) : (value.put space).bv = space.bv := by
  cases value <;> rfl

theorem put_shown (space : SpaceSection) (value : SpaceValue) : value.Shown (value.put space) := by
  cases value with
  | direct endpoint => exact ⟨rfl, rfl⟩
  | _ => rfl

theorem put_other (space : SpaceSection) (value shown : SpaceValue) (before : shown.Shown space) (differ : shown.field ≠ value.field) :
    shown.Shown (value.put space) := by
  cases value <;> cases shown <;> first | exact before | exact absurd rfl differ

theorem shown_bits (space : SpaceSection) (bits : List SpaceField) (value : SpaceValue) :
    value.Shown { space with bv := bits } ↔ value.Shown space := by
  cases value <;> rfl

-- tsd_mode is the only field whose value has a part that is set apart.
theorem tsd_mode_reads (space next : SpaceSection) (elements : List Bson) (parsed : parseTsdMode space elements = some next) :
    ∃ value : SpaceValue, Reads ("tsd_mode", .array elements) value ∧ value.field = .tsdMode ∧ next = value.put space := by
  unfold parseTsdMode at parsed
  split at parsed
  · rename_i chars
    split at parsed
    · rename_i known
      cases parsed
      exact ⟨.token, .token chars known, rfl, rfl⟩
    · cases parsed
  · rename_i chars address
    split at parsed
    · rename_i known
      dsimp only at parsed
      split at parsed
      · rename_i master
        split at parsed
        · cases parsed
        · rename_i fits
          cases parsed
          refine ⟨_, .direct chars (.utf8 master) known ?_, rfl, rfl⟩
          intro other same
          cases same
          omega
      · rename_i noString
        cases parsed
        exact ⟨_, .direct chars address known fun master same => absurd same (noString master), rfl, rfl⟩
    · cases parsed
  · cases parsed

theorem once_bits (space next : SpaceSection) (field : SpaceField) (set : space.once field = some next) :
    field ∉ space.bv ∧ next = { space with bv := field :: space.bv } := by
  unfold SpaceSection.once at set
  split at set
  · cases set
  · rename_i fresh
    cases set
    exact ⟨fresh, rfl⟩

theorem once_fresh (space : SpaceSection) (field : SpaceField) (fresh : field ∉ space.bv) :
    space.once field = some { space with bv := field :: space.bv } := by
  rw [SpaceSection.once, if_neg fresh]

def SpaceValue.set (space : SpaceSection) (value : SpaceValue) : SpaceSection := { value.put space with bv := value.field :: space.bv }

theorem field_reads (space next : SpaceSection) (key : String) (value : Bson) (parsed : parseSpaceField space key value = some next) :
    ∃ read : SpaceValue, Reads (key, value) read ∧ read.field ∉ space.bv ∧ next = read.set space := by
  unfold parseSpaceField at parsed
  split at parsed
  · rename_i chars
    split at parsed
    · cases parsed
    · rename_i fits
      obtain ⟨fresh, same⟩ := once_bits _ _ _ parsed
      exact ⟨.name (cstr chars), .name chars (by omega), fresh, same⟩
  · rename_i number
    obtain ⟨fresh, same⟩ := once_bits _ _ _ parsed
    exact ⟨.id number, .id number, fresh, same⟩
  · rename_i chars
    obtain ⟨role, known, set⟩ := Option.bind_eq_some_iff.mp parsed
    obtain ⟨fresh, same⟩ := once_bits _ _ _ set
    exact ⟨.mode role, .mode chars role known, fresh, same⟩
  · rename_i elements
    obtain ⟨middle, tsd, set⟩ := Option.bind_eq_some_iff.mp parsed
    obtain ⟨read, reads, field, rfl⟩ := tsd_mode_reads space middle elements tsd
    obtain ⟨fresh, same⟩ := once_bits _ _ _ set
    rw [put_bits, ← field] at fresh
    refine ⟨read, reads, fresh, ?_⟩
    rw [same, SpaceValue.set, field, put_bits]
  · cases parsed

theorem reads_field (space : SpaceSection) (field : String × Bson) (read : SpaceValue) (reads : Reads field read)
    (fresh : read.field ∉ space.bv) : parseSpaceField space field.1 field.2 = some (read.set space) := by
  cases reads with
  | name chars fits =>
      simp only [parseSpaceField, if_neg (show ¬ chars.length > 25 by omega)]
      exact once_fresh _ _ fresh
  | id number => exact once_fresh _ _ fresh
  | mode chars role known =>
      simp only [parseSpaceField, known]
      exact once_fresh _ _ fresh
  | token chars known =>
      simp only [parseSpaceField, parseTsdMode, known]
      exact once_fresh _ _ fresh
  | direct chars address known fits =>
      have tsd : parseTsdMode space [.utf8 chars, address] = some ((SpaceValue.direct (address.dupUtf8.getD [])).put space) := by
        simp only [parseTsdMode, known]
        split
        · rename_i master
          rw [if_neg (show ¬ master.length > maxIdLen by have := fits master rfl; omega)]
          rfl
        · rfl
      simp only [parseSpaceField, tsd]
      exact once_fresh _ _ fresh

-- What has been read so far, the last value first.
structure Said (space : SpaceSection) (values : List SpaceValue) : Prop where
  bits : space.bv = values.map SpaceValue.field
  once : space.bv.Nodup
  shown : ∀ value ∈ values, value.Shown space

theorem set_said (space : SpaceSection) (values : List SpaceValue) (read : SpaceValue) (said : Said space values)
    (fresh : read.field ∉ space.bv) : Said (read.set space) (read :: values) where
  bits := by
    rw [List.map_cons, ← said.bits]
    rfl
  once := List.nodup_cons.mpr ⟨fresh, said.once⟩
  shown := by
    intro value member
    rw [SpaceValue.set, shown_bits]
    cases List.mem_cons.mp member with
    | inl same => exact same ▸ put_shown space value
    | inr earlier =>
        refine put_other space read value (said.shown value earlier) fun same => fresh ?_
        rw [said.bits, ← same]
        exact List.mem_map_of_mem earlier

theorem fields_read (fields : List (String × Bson)) (space final : SpaceSection) (values : List SpaceValue) (said : Said space values)
    (parsed : parseSpaceFields space fields = some final) :
    ∃ reads, List.Forall₂ Reads fields reads ∧ Said final (reads.reverse ++ values) := by
  induction fields generalizing space values with
  | nil =>
      cases parsed
      exact ⟨[], .nil, said⟩
  | cons field rest ih =>
      obtain ⟨next, first, later⟩ := Option.bind_eq_some_iff.mp parsed
      obtain ⟨read, reads, fresh, rfl⟩ := field_reads space next field.1 field.2 first
      obtain ⟨others, behind, done⟩ := ih _ _ (set_said space values read said fresh) later
      refine ⟨read :: others, .cons reads behind, ?_⟩
      rw [List.reverse_cons, List.append_assoc]
      exact done

theorem read_fields (fields : List (String × Bson)) (reads : List SpaceValue) (each : List.Forall₂ Reads fields reads)
    (space : SpaceSection) (values : List SpaceValue) (said : Said space values)
    (once : ((reads.reverse ++ values).map SpaceValue.field).Nodup) :
    ∃ final, parseSpaceFields space fields = some final ∧ Said final (reads.reverse ++ values) := by
  induction each generalizing space values with
  | nil => exact ⟨space, rfl, said⟩
  | @cons field read rest others one behind ih =>
      rw [List.reverse_cons, List.append_assoc] at once ⊢
      have fresh : read.field ∉ space.bv := by
        rw [List.map_append] at once
        rw [said.bits]
        exact (List.nodup_cons.mp once.of_append_right).1
      obtain ⟨final, parsed, done⟩ := ih _ _ (set_said space values read said fresh) once
      refine ⟨final, ?_, done⟩
      rw [parseSpaceFields, reads_field space field read one fresh]
      exact parsed

theorem empty_said : Said emptySpace [] := ⟨rfl, List.nodup_nil, fun _ member => absurd member List.not_mem_nil⟩

theorem known_mode (chars : Bytes) (role : TsMode) : utf8TsMode chars = some role ↔ chars = role.chars := by
  constructor
  · intro known
    unfold utf8TsMode at known
    split at known <;> cases known <;> rfl
  · rintro rfl
    cases role <;> rfl

theorem token_chars (chars : Bytes) : utf8TsdMode chars = some .token ↔ chars = [116, 111, 107, 101, 110] := by
  constructor
  · intro known
    unfold utf8TsdMode at known
    split at known <;> first | rfl | cases known
  · rintro rfl
    rfl

theorem direct_chars (chars : Bytes) : utf8TsdMode chars = some .direct ↔ chars = [100, 105, 114, 101, 99, 116] := by
  constructor
  · intro known
    unfold utf8TsdMode at known
    split at known <;> first | rfl | cases known
  · rintro rfl
    rfl

theorem loose_tsd_reads (elements : List Bson) (loose : LooseTsd elements) :
    ∃ value : SpaceValue, Reads ("tsd_mode", .array elements) value ∧ value.field = .tsdMode := by
  cases loose with
  | token chars is => exact ⟨_, .token chars ((token_chars _).mpr is), rfl⟩
  | direct chars address is fits => exact ⟨_, .direct chars address ((direct_chars _).mpr is) fits, rfl⟩

theorem loose_accepted (entry : LooseEntry) (role : TsMode) (known : cstr entry.mode = role.chars) (tsd : SpaceValue)
    (tsdReads : Reads ("tsd_mode", .array entry.tsd) tsd) (tsdField : tsd.field = .tsdMode) (fields : List (String × Bson))
    (perm : fields.Perm entry.fields) :
    ∃ space, parseSpaceFields emptySpace fields = some space ∧ (∀ field ∈ magic1, field ∈ space.bv) ∧
      ∀ value ∈ [.name (cstr entry.name), .id entry.id, .mode role, tsd], value.Shown space := by
  have each : List.Forall₂ Reads entry.fields [.name (cstr entry.name), .id entry.id, .mode role, tsd] :=
    .cons (.name entry.name entry.nameFits) (.cons (.id entry.id)
      (.cons (.mode entry.mode role ((known_mode _ role).mpr known)) (.cons tsdReads .nil)))
  obtain ⟨reads, moved, same⟩ := List.perm_comp_forall₂ perm each
  have names : ((reads.reverse ++ []).map SpaceValue.field).Perm magic1 := by
    have four : ([.name (cstr entry.name), .id entry.id, .mode role, tsd].map SpaceValue.field) = magic1 := by
      rw [List.map_cons, List.map_cons, List.map_cons, List.map_cons, tsdField]
      rfl
    rw [List.append_nil, ← four]
    exact ((List.reverse_perm reads).trans same).map SpaceValue.field
  obtain ⟨space, parsed, said⟩ := read_fields fields reads moved emptySpace [] empty_said (names.nodup_iff.mpr (by decide))
  refine ⟨space, parsed, fun field member => ?_, fun value member => said.shown value ?_⟩
  · rw [said.bits]
    exact names.mem_iff.mpr member
  · rw [List.append_nil, List.mem_reverse]
    exact same.mem_iff.mpr member

theorem said_value (space : SpaceSection) (values : List SpaceValue) (said : Said space values) (all : ∀ field ∈ magic1, field ∈ space.bv)
    (field : SpaceField) : ∃ value ∈ values, value.field = field := by
  have member : field ∈ space.bv := all field (by cases field <;> decide)
  rw [said.bits] at member
  exact List.mem_map.mp member

theorem said_four (space : SpaceSection) (values : List SpaceValue) (said : Said space values) (all : ∀ field ∈ magic1, field ∈ space.bv) :
    ∃ name id mode tsd : SpaceValue, [name, id, mode, tsd].Perm values ∧
      name.field = .name ∧ id.field = .id ∧ mode.field = .mode ∧ tsd.field = .tsdMode := by
  obtain ⟨name, inName, isName⟩ := said_value space values said all .name
  obtain ⟨id, inId, isId⟩ := said_value space values said all .id
  obtain ⟨mode, inMode, isMode⟩ := said_value space values said all .mode
  obtain ⟨tsd, inTsd, isTsd⟩ := said_value space values said all .tsdMode
  have names : [name, id, mode, tsd].map SpaceValue.field = magic1 := by
    rw [List.map_cons, List.map_cons, List.map_cons, List.map_cons, isName, isId, isMode, isTsd]
    rfl
  have distinct : [name, id, mode, tsd].Nodup := List.Nodup.of_map SpaceValue.field (names ▸ by decide)
  have inside : [name, id, mode, tsd] ⊆ values := by
    simp [inName, inId, inMode, inTsd]
  have short : values.length ≤ 4 := by
    have known : values.map SpaceValue.field ⊆ magic1 := fun field _ => by cases field <;> decide
    simpa [magic1] using (List.subperm_of_subset (said.bits ▸ said.once) known).length_le
  exact ⟨name, id, mode, tsd, (List.subperm_of_subset distinct inside).perm_of_length_le short, isName, isId, isMode, isTsd⟩

theorem reads_name (field : String × Bson) (value : SpaceValue) (reads : Reads field value) (is : value.field = .name) :
    ∃ chars, field = ("name", .utf8 chars) ∧ chars.length ≤ 25 := by
  cases reads with
  | name chars fits => exact ⟨chars, rfl, fits⟩
  | _ => cases is

theorem reads_id (field : String × Bson) (value : SpaceValue) (reads : Reads field value) (is : value.field = .id) :
    ∃ number, field = ("id", .int32 number) := by
  cases reads with
  | id number => exact ⟨number, rfl⟩
  | _ => cases is

theorem reads_mode (field : String × Bson) (value : SpaceValue) (reads : Reads field value) (is : value.field = .mode) :
    ∃ chars, field = ("mode", .utf8 chars) ∧ ∃ known : TsMode, cstr chars = known.chars := by
  cases reads with
  | mode chars role known => exact ⟨chars, rfl, role, (known_mode _ role).mp known⟩
  | _ => cases is

theorem reads_tsd_mode (field : String × Bson) (value : SpaceValue) (reads : Reads field value) (is : value.field = .tsdMode) :
    ∃ elements, field = ("tsd_mode", .array elements) ∧ LooseTsd elements := by
  cases reads with
  | token chars known => exact ⟨_, rfl, .token chars ((token_chars _).mp known)⟩
  | direct chars address known fits => exact ⟨_, rfl, .direct chars address ((direct_chars _).mp known) fits⟩
  | _ => cases is

theorem accepted_loose (fields : List (String × Bson)) (space : SpaceSection) (parsed : parseSpaceFields emptySpace fields = some space)
    (all : ∀ field ∈ magic1, field ∈ space.bv) : ∃ entry : LooseEntry, fields.Perm entry.fields := by
  obtain ⟨reads, each, said⟩ := fields_read fields emptySpace space [] empty_said parsed
  rw [List.append_nil] at said
  obtain ⟨name, id, mode, tsd, same, isName, isId, isMode, isTsd⟩ := said_four space _ said all
  obtain ⟨sorted, moved, perm⟩ := List.perm_comp_forall₂ (same.trans (List.reverse_perm reads)) each.flip
  cases moved with
  | cons nameRead moved =>
    cases moved with
    | cons idRead moved =>
      cases moved with
      | cons modeRead moved =>
        cases moved with
        | cons tsdRead moved =>
          cases moved
          obtain ⟨nameChars, rfl, nameFits⟩ := reads_name _ name nameRead isName
          obtain ⟨number, rfl⟩ := reads_id _ id idRead isId
          obtain ⟨modeChars, rfl, modeKnown⟩ := reads_mode _ mode modeRead isMode
          obtain ⟨elements, rfl, tsdLoose⟩ := reads_tsd_mode _ tsd tsdRead isTsd
          exact ⟨⟨nameChars, number, modeChars, elements, nameFits, modeKnown, tsdLoose⟩, perm.symm⟩

-- What an element of the array leaves in spaces, where it is let pass.
def SpaceOf (element : Bson) (space : SpaceSection) : Prop :=
  ∃ fields, element = .document fields ∧ ∃ filled, parseSpaceFields emptySpace fields = some filled ∧
    (∀ field ∈ magic1, field ∈ filled.bv) ∧ space = { filled with bv := [] }

theorem parse_spaces_iff (entries : List Bson) (spaces : List SpaceSection) :
    parseSpaces entries = .ok spaces ↔ List.Forall₂ SpaceOf entries spaces := by
  induction entries generalizing spaces with
  | nil =>
      rw [List.forall₂_nil_left_iff]
      constructor
      · intro parsed
        cases parsed
        rfl
      · rintro rfl
        rfl
  | cons element rest ih =>
      rw [List.forall₂_cons_left_iff]
      constructor
      · intro parsed
        cases element with
        | document fields =>
            simp only [parseSpaces] at parsed
            split at parsed
            · cases parsed
            · rename_i filled read
              split at parsed
              · cases parsed
              · rename_i all
                push Not at all
                cases later : parseSpaces rest with
                | error stop =>
                    rw [later] at parsed
                    cases parsed
                | ok others =>
                    rw [later] at parsed
                    cases parsed
                    exact ⟨_, others, ⟨fields, rfl, filled, read, all, rfl⟩, (ih others).mp later, rfl⟩
        | _ => cases parsed
      · rintro ⟨space, others, ⟨fields, rfl, filled, read, all, rfl⟩, behind, rfl⟩
        have complete : ¬ ∃ field ∈ magic1, field ∉ filled.bv := by
          push Not
          exact all
        simp only [parseSpaces, read, if_neg complete, (ih others).mpr behind]
        rfl

theorem space_of_iff (element : Bson) : (∃ space, SpaceOf element space) ↔ LooseElement element := by
  constructor
  · rintro ⟨space, fields, rfl, filled, parsed, all, rfl⟩
    obtain ⟨entry, perm⟩ := accepted_loose fields filled parsed all
    exact ⟨fields, entry, rfl, perm⟩
  · rintro ⟨fields, entry, rfl, perm⟩
    obtain ⟨role, known⟩ := entry.modeKnown
    obtain ⟨tsd, tsdReads, tsdField⟩ := loose_tsd_reads entry.tsd entry.tsdLoose
    obtain ⟨filled, parsed, all, _⟩ := loose_accepted entry role known tsd tsdReads tsdField fields perm
    exact ⟨_, fields, rfl, filled, parsed, all, rfl⟩

theorem forall_exists_iff {α β : Type} (has : α → β → Prop) (elements : List α) :
    (∃ found, List.Forall₂ has elements found) ↔ ∀ element ∈ elements, ∃ one, has element one := by
  constructor
  · rintro ⟨found, each⟩
    induction each with
    | nil => exact fun element member => absurd member List.not_mem_nil
    | cons first _ ih => exact List.forall_mem_cons.mpr ⟨⟨_, first⟩, ih⟩
  · intro each
    induction elements with
    | nil => exact ⟨[], .nil⟩
    | cons element rest ih =>
        obtain ⟨⟨one, first⟩, behind⟩ := List.forall_mem_cons.mp each
        obtain ⟨found, later⟩ := ih behind
        exact ⟨one :: found, .cons first later⟩

theorem parse_spaces_loose (entries : List Bson) :
    (∃ spaces, parseSpaces entries = .ok spaces) ↔ ∀ element ∈ entries, LooseElement element := by
  simp only [parse_spaces_iff, forall_exists_iff, space_of_iff]

theorem mode_clean (role : TsMode) : NulFree role.chars := by
  cases role <;> decide

def SpaceTsd.value : SpaceTsd → SpaceValue
  | .token => .token
  | .direct address => .direct (cstr address)

theorem tsd_elements_read (tsd : SpaceTsd) (fits : ∀ address, tsd = .direct address → address.length ≤ maxIdLen) :
    Reads ("tsd_mode", .array tsd.elements) tsd.value := by
  cases tsd with
  | token => exact .token _ rfl
  | direct address =>
      refine .direct _ (.utf8 address) rfl fun master same => ?_
      cases same
      exact fits address rfl

theorem tsd_value_field (tsd : SpaceTsd) : tsd.value.field = .tsdMode := by
  cases tsd <;> rfl

theorem tsd_elements_loose (tsd : SpaceTsd) (fits : ∀ address, tsd = .direct address → address.length ≤ maxIdLen) :
    LooseTsd tsd.elements := by
  obtain ⟨elements, same, loose⟩ := reads_tsd_mode _ _ (tsd_elements_read tsd fits) (tsd_value_field tsd)
  cases same
  exact loose

-- What follows the grammar is let pass.
def SpaceEntry.loose (entry : SpaceEntry) : LooseEntry where
  name := entry.name
  id := entry.id
  mode := entry.mode.chars
  tsd := entry.tsd.elements
  nameFits := entry.nameFits
  modeKnown := ⟨entry.mode, (cstr_eq_self _).mpr (mode_clean entry.mode)⟩
  tsdLoose := tsd_elements_loose entry.tsd entry.addressFits

theorem described_loose (element : Bson) (said : SpaceEntry) (describes : Describes element said) : LooseElement element := by
  obtain ⟨fields, same, perm⟩ := describes
  exact ⟨fields, said.loose, same, perm⟩

theorem described_shown (element : Bson) (said : SpaceEntry) (space : SpaceSection) (describes : Describes element said)
    (left : SpaceOf element space) :
    space.name = some (cstr said.name) ∧ space.id = some said.id ∧ space.tsMode = some said.mode ∧ said.tsd.value.Shown space := by
  obtain ⟨fields, rfl, perm⟩ := describes
  obtain ⟨_, same, filled, parsed, _, rfl⟩ := left
  cases same
  obtain ⟨_, again, _, shown⟩ := loose_accepted said.loose said.mode ((cstr_eq_self _).mpr (mode_clean said.mode)) said.tsd.value
    (tsd_elements_read said.tsd said.addressFits) (tsd_value_field said.tsd) fields perm
  cases parsed.symm.trans again
  have each : ∀ value ∈ [.name (cstr said.name), .id said.id, .mode said.mode, said.tsd.value],
      value.Shown { filled with bv := [] } :=
    fun value member => (shown_bits filled [] value).mpr (shown value member)
  simp only [List.forall_mem_cons] at each
  exact ⟨each.1, each.2.1, each.2.2.1, each.2.2.2.1⟩

def SpaceTsd.Clean (tsd : SpaceTsd) : Prop := ∀ address, tsd = .direct address → NulFree address

theorem tsd_held (tsd : SpaceTsd) (space : SpaceSection) (shown : tsd.value.Shown space) : tsd.HeldBy space ↔ tsd.Clean := by
  cases tsd with
  | token => exact ⟨fun _ => by rintro _ ⟨⟩, fun _ => shown⟩
  | direct address =>
      obtain ⟨direct, endpoint⟩ := shown
      constructor
      · rintro ⟨_, held⟩ _ ⟨⟩
        exact (cstr_eq_self address).mp (Option.some_inj.mp (endpoint.symm.trans held))
      · intro clean
        exact ⟨direct, endpoint.trans (congrArg some ((cstr_eq_self address).mpr (clean address rfl)))⟩

theorem held_iff (element : Bson) (said : SpaceEntry) (space : SpaceSection) (describes : Describes element said)
    (left : SpaceOf element space) : said.HeldBy space ↔ NulFree said.name ∧ said.tsd.Clean := by
  obtain ⟨name, id, mode, tsd⟩ := described_shown element said space describes left
  constructor
  · intro held
    exact ⟨(cstr_eq_self _).mp (Option.some_inj.mp (name.symm.trans held.name)), (tsd_held _ space tsd).mp held.tsd⟩
  · rintro ⟨nameClean, tsdClean⟩
    exact ⟨name.trans (congrArg some ((cstr_eq_self _).mpr nameClean)), id, mode, (tsd_held _ space tsd).mpr tsdClean⟩

theorem tsd_elements_clean (tsd : SpaceTsd) : (Bson.array tsd.elements).Clean ↔ tsd.Clean := by
  cases tsd with
  | token =>
      refine ⟨fun _ => by rintro _ ⟨⟩, fun _ element member => ?_⟩
      cases List.mem_singleton.mp member
      exact (by decide : NulFree [116, 111, 107, 101, 110])
  | direct address =>
      constructor
      · rintro clean _ ⟨⟩
        exact clean (.utf8 address) (List.mem_cons_of_mem _ List.mem_cons_self)
      · intro clean element member
        cases List.mem_cons.mp member with
        | inl first =>
            cases first
            exact (by decide : NulFree [100, 105, 114, 101, 99, 116])
        | inr second =>
            cases List.mem_singleton.mp second
            exact clean address rfl

theorem described_clean_iff (element : Bson) (said : SpaceEntry) (describes : Describes element said) :
    CleanElement element ↔ NulFree said.name ∧ said.tsd.Clean := by
  obtain ⟨fields, rfl, perm⟩ := describes
  have same : CleanElement (.document fields) ↔ ∀ field ∈ said.fields, field.2.Clean := by
    constructor
    · exact fun clean field member => clean fields rfl field (perm.mem_iff.mpr member)
    · rintro clean _ ⟨⟩ field member
      exact clean field (perm.mem_iff.mp member)
  rw [same, SpaceEntry.fields]
  simp only [List.forall_mem_cons, tsd_elements_clean]
  exact ⟨fun each => ⟨each.1, each.2.2.2.1⟩,
    fun both => ⟨both.1, trivial, mode_clean said.mode, both.2, fun _ none_ => absurd none_ List.not_mem_nil⟩⟩

theorem loose_tsd_described (elements : List Bson) (loose : LooseTsd elements) (clean : (Bson.array elements).Clean) :
    ∃ tsd : SpaceTsd, elements = tsd.elements ∧ ∀ address, tsd = .direct address → address.length ≤ maxIdLen := by
  cases loose with
  | token chars is =>
      have whole : cstr chars = chars := (cstr_eq_self chars).mpr (clean _ List.mem_cons_self)
      exact ⟨.token, by rw [← whole, is]; rfl, by rintro _ ⟨⟩⟩
  | direct chars address is fits =>
      have whole : cstr chars = chars := (cstr_eq_self chars).mpr (clean _ List.mem_cons_self)
      have string : address.CleanString := clean _ (List.mem_cons_of_mem _ List.mem_cons_self)
      cases address with
      | utf8 master =>
          refine ⟨.direct master, by rw [← whole, is]; rfl, fun other same => ?_⟩
          cases same
          exact fits master rfl
      | _ => exact string.elim

theorem loose_described (element : Bson) (loose : LooseElement element) (clean : CleanElement element) :
    ∃ said, Describes element said := by
  obtain ⟨fields, entry, rfl, perm⟩ := loose
  have each : ∀ field ∈ entry.fields, field.2.Clean := fun field member => clean fields rfl field (perm.mem_iff.mpr member)
  rw [LooseEntry.fields] at each
  simp only [List.forall_mem_cons] at each
  obtain ⟨_, _, modeClean, tsdClean, _⟩ := each
  obtain ⟨role, known⟩ := entry.modeKnown
  obtain ⟨tsd, elements, addressFits⟩ := loose_tsd_described entry.tsd entry.tsdLoose tsdClean
  have chars : entry.mode = role.chars := ((cstr_eq_self _).mpr modeClean).symm.trans known
  refine ⟨⟨entry.name, entry.id, role, tsd, entry.nameFits, addressFits⟩, fields, rfl, ?_⟩
  rw [LooseEntry.fields, chars, elements] at perm
  exact perm

theorem held_all_iff (entries : List Bson) (said : List SpaceEntry) (spaces : List SpaceSection)
    (describes : List.Forall₂ Describes entries said) (left : List.Forall₂ SpaceOf entries spaces) :
    List.Forall₂ SpaceEntry.HeldBy spaces said ↔ ∀ element ∈ entries, CleanElement element := by
  induction describes generalizing spaces with
  | nil =>
      cases left
      exact ⟨fun _ element member => absurd member List.not_mem_nil, fun _ => .nil⟩
  | cons first _ ih =>
      cases left with
      | cons leaves behind =>
          rw [List.forall₂_cons, List.forall_mem_cons, ih _ behind, held_iff _ _ _ first leaves, described_clean_iff _ _ first]

-- The section is accepted just when it follows its grammar, each space holding what its element says, if and only if an array
-- that streq and the two lengths let pass has no NUL in its strings and nothing but a string behind "direct".
theorem spaces_grammar_iff (entries : List Bson) :
    AcceptsGrammar entries ↔ ((∀ element ∈ entries, LooseElement element) → ∀ element ∈ entries, CleanElement element) := by
  constructor
  · intro grammar loose
    obtain ⟨spaces, parsed⟩ := (parse_spaces_loose entries).mpr loose
    obtain ⟨said, describes⟩ := grammar.accepts.mp ⟨spaces, parsed⟩
    have left := (parse_spaces_iff entries spaces).mp parsed
    exact (held_all_iff entries said spaces describes left).mp (grammar.held spaces said parsed describes)
  · intro clean
    have passes : ∀ spaces, parseSpaces entries = .ok spaces → ∀ element ∈ entries, LooseElement element :=
      fun spaces parsed => (parse_spaces_loose entries).mp ⟨spaces, parsed⟩
    refine ⟨⟨?_, ?_⟩, ?_, ?_⟩
    · rintro ⟨spaces, parsed⟩
      have loose := passes spaces parsed
      exact (forall_exists_iff _ entries).mpr fun element member =>
        loose_described element (loose element member) (clean loose element member)
    · intro described
      refine (parse_spaces_loose entries).mpr fun element member => ?_
      obtain ⟨said, describes⟩ := (forall_exists_iff _ entries).mp described element member
      exact described_loose element said describes
    · intro spaces parsed
      exact ((parse_spaces_iff entries spaces).mp parsed).length_eq.symm
    · intro spaces said parsed describes
      exact (held_all_iff entries said spaces describes ((parse_spaces_iff entries spaces).mp parsed)).mpr
        (clean (passes spaces parsed))

-- An element whose tsd_mode is ["direct", 5].
def numberBehindDirect : List Bson :=
  [.document [("name", .utf8 [97]), ("id", .int32 1), ("mode", .utf8 [112, 50, 112]),
    ("tsd_mode", .array [.utf8 [100, 105, 114, 101, 99, 116], .int32 5])]]

theorem number_for_address : ¬ ∀ entries, AcceptsGrammar entries := by
  intro claim
  obtain ⟨spaces, parsed⟩ : ∃ spaces, parseSpaces numberBehindDirect = .ok spaces := ⟨_, rfl⟩
  have grammar := claim numberBehindDirect
  obtain ⟨said, describes⟩ := grammar.accepts.mp ⟨spaces, parsed⟩
  have clean := (held_all_iff _ said spaces describes ((parse_spaces_iff _ spaces).mp parsed)).mp
    (grammar.held spaces said parsed describes) _ List.mem_cons_self
  have strings : (Bson.array [.utf8 [100, 105, 114, 101, 99, 116], .int32 5]).Clean :=
    clean _ rfl ("tsd_mode", .array [.utf8 [100, 105, 114, 101, 99, 116], .int32 5]) (by simp)
  exact strings (.int32 5) (List.mem_cons_of_mem _ List.mem_cons_self)

end Synergy
