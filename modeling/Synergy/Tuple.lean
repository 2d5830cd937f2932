import Synergy.Wire

set_option autoImplicit false

namespace Synergy

-- tuple_command_t, in the order of the enumerators.
inductive TupleCommand where
  | tsNone | tsGet | tsPut | tsAdd | tsRead | tsPop | tsPeek | tsConnect | tsTerm | tsEnf | tsAck | tsAnon
  | tsBCastWrite | tsBCastRead | tsGetBlocking | tsReadBlocking | tsBCastReadBlocking | tsPopBlocking
  | tsPeekBlocking | tsExpect | tsDeposit | tsTransmit | tsRequest | tsTake | tsMigrate | tsReplicate
deriving DecidableEq, Repr

def TupleCommand.all : List TupleCommand :=
  [.tsNone, .tsGet, .tsPut, .tsAdd, .tsRead, .tsPop, .tsPeek, .tsConnect, .tsTerm, .tsEnf, .tsAck, .tsAnon,
    .tsBCastWrite, .tsBCastRead, .tsGetBlocking, .tsReadBlocking, .tsBCastReadBlocking, .tsPopBlocking,
    .tsPeekBlocking, .tsExpect, .tsDeposit, .tsTransmit, .tsRequest, .tsTake, .tsMigrate, .tsReplicate]

def TupleCommand.code (command : TupleCommand) : UInt32 := UInt32.ofNat command.ctorIdx

def TupleCommand.ofCode (code : UInt32) : Option TupleCommand := TupleCommand.all[code.toNat]?

@[simp] theorem of_code_code (command : TupleCommand) : TupleCommand.ofCode command.code = some command := by
  cases command <;> rfl

theorem code_injective (a b : TupleCommand) (same : a.code = b.code) : a = b := by
  have decoded := congrArg TupleCommand.ofCode same
  simpa only [of_code_code, Option.some.injEq] using decoded

theorem code_of_code (code : UInt32) (command : TupleCommand) (decoded : TupleCommand.ofCode code = some command) :
    command.code = code := by
  have single : TupleCommand.all.Nodup := by decide
  have within : code.toNat < TupleCommand.all.length := (List.getElem?_eq_some_iff.mp decoded).1
  have same : TupleCommand.all[code.toNat]? = TupleCommand.all[command.code.toNat]? := decoded.trans (of_code_code command).symm
  exact UInt32.toNat_inj.mp ((List.getElem?_inj within single).mp same).symm

-- A char pointer: NULL, a terminated string, or one whose block has been freed.
inductive CString where
  | null
  | str (chars : Bytes)
  | freed
deriving DecidableEq, Repr

def CString.chars : CString → Except Stop Bytes
  | .str chars => .ok chars
  | .null => .error .undefined
  | .freed => .error .undefined

-- sng_tuple_t. len is the length of data. origin is ghost: the ticket of the request that wrote the tuple.
structure SngTuple where
  name : CString
  anonId : UInt32
  data : Bytes
  origin : Nat
deriving DecidableEq, Repr

-- blocking_request_t. ticket is ghost: the request message it was made from.
structure BlockingRequest where
  name : CString
  clientid : CString
  command : TupleCommand
  extra : Nat
  isLocal : Bool
  ticket : Nat
deriving DecidableEq, Repr

-- The host's order; regcomp, none where a pattern does not compile, else what regexec then accepts;
-- the endpoints zmq_connect takes.
structure Platform where
  host : HostOrder
  regcomp : Bytes → Option (Bytes → Bool)
  connects : Bytes → Bool

def strcmp : Bytes → Bytes → Int
  | [], [] => 0
  | [], b :: _ => -b.toNat
  | a :: _, [] => a.toNat
  | a :: as, b :: bs => if a = b then strcmp as bs else (a.toNat : Int) - b.toNat

-- _match: the end of a list is the terminator. The tails are the positions the '*' loop tries, in order.
def match_ : Bytes → Bytes → Int
  | [], name => if name = [] then 0 else 1
  | c :: expr, name =>
      if name.head? = some c then match_ expr name.tail
      else if c = '?'.toUInt8 then
        match name with
        | [] => 1
        | _ :: rest => match_ expr rest
      else if c = '*'.toUInt8 then
        if name.tails.any (fun rest => match_ expr rest = 0) then 0 else 1
      else 1

def tplicmp (tuple1 tuple2 : SngTuple) : Int :=
  if tuple1.anonId < tuple2.anonId then -1 else if tuple1.anonId > tuple2.anonId then 1 else 0

def tplregex (env : Platform) (pattern name : Bytes) : Int :=
  match env.regcomp (pattern.drop 1) with
  | none => 1
  | some accepts => if accepts name then 0 else 1

def tplcmp (env : Platform) (tuple1 tuple2 : SngTuple) : Except Stop Int :=
  if (tuple1.name = .null ∧ tuple1.anonId ≠ 0) ∨ (tuple2.name = .null ∧ tuple2.anonId ≠ 0) then
    .ok (tplicmp tuple1 tuple2)
  else do
    let name1 ← tuple1.name.chars
    -- streq(tpl1->name, "*") short-circuits before tpl2->name is looked at
    if strcmp name1 ['*'.toUInt8] = 0 then return 0
    let name2 ← tuple2.name.chars
    if strcmp name2 ['*'.toUInt8] = 0 then return 0
    let colon := some ':'.toUInt8
    let bang := some '!'.toUInt8
    if name1.head? = colon ∧ name2.head? ≠ colon then return tplregex env name1 name2
    if name1.head? ≠ colon ∧ name2.head? = colon then return tplregex env name2 name1
    if name2.head? = bang ∧ name1.head? ≠ bang then return match_ (name2.drop 1) name1
    if name1.head? = bang ∧ name2.head? ≠ bang then return match_ (name1.drop 1) name2
    return strcmp name1 name2

-- itm1 is the list element. Both search tuples take their anon_id from it.
def blckcmpStr (env : Platform) (blck1 blck2 : BlockingRequest) : Except Stop Int :=
  let t1 : SngTuple := { name := blck1.name, anonId := UInt32.ofNat blck1.extra, data := [], origin := 0 }
  let t2 : SngTuple := { name := blck2.name, anonId := UInt32.ofNat blck1.extra, data := [], origin := 0 }
  if blck1.command = .tsPopBlocking ∨ blck1.command = .tsPeekBlocking then .ok 0
  else tplcmp env t1 t2

-- What tplcmp compares when both names are strings.
def nameCmp (env : Platform) (name1 name2 : Bytes) : Int :=
  if strcmp name1 ['*'.toUInt8] = 0 then 0
  else if strcmp name2 ['*'.toUInt8] = 0 then 0
  else if name1.head? = some ':'.toUInt8 ∧ name2.head? ≠ some ':'.toUInt8 then tplregex env name1 name2
  else if name1.head? ≠ some ':'.toUInt8 ∧ name2.head? = some ':'.toUInt8 then tplregex env name2 name1
  else if name2.head? = some '!'.toUInt8 ∧ name1.head? ≠ some '!'.toUInt8 then match_ (name2.drop 1) name1
  else if name1.head? = some '!'.toUInt8 ∧ name2.head? ≠ some '!'.toUInt8 then match_ (name1.drop 1) name2
  else strcmp name1 name2

theorem tplcmp_named (env : Platform) (tuple1 tuple2 : SngTuple) (name1 name2 : Bytes)
    (first : tuple1.name = .str name1) (second : tuple2.name = .str name2) :
    tplcmp env tuple1 tuple2 = .ok (nameCmp env name1 name2) := by
  have named : ¬ ((tuple1.name = .null ∧ tuple1.anonId ≠ 0) ∨ (tuple2.name = .null ∧ tuple2.anonId ≠ 0)) := by
    simp [first, second]
  rw [tplcmp, if_neg named, first, second]
  simp only [CString.chars, nameCmp, bind, Except.bind, pure, Except.pure, apply_ite Except.ok]

theorem strcmp_neg (a b : Bytes) : strcmp b a = -strcmp a b := by
  induction a generalizing b with
  | nil => cases b <;> simp [strcmp]
  | cons c rest ih =>
      cases b with
      | nil => simp [strcmp]
      | cons d other =>
          by_cases same : c = d
          · simp [strcmp, same, ih other]
          · simp [strcmp, same, Ne.symm same]

-- Two tests of which at most one holds, made in either order.
theorem tests_turned (one two one' two' : Prop) [Decidable one] [Decidable two] [Decidable one'] [Decidable two'] (x y z z' : Int)
    (apart : one → ¬ two) (same : one ↔ one') (other : two ↔ two') (rest : z = 0 ↔ z' = 0) :
    (if one then x else if two then y else z) = 0 ↔ (if two' then y else if one' then x else z') = 0 := by
  by_cases first : one
  · rw [if_pos first, if_neg (fun second => apart first (other.mpr second)), if_pos (same.mp first)]
  · have notFirst : ¬ one' := fun holds => first (same.mpr holds)
    rw [if_neg first, if_neg notFirst]
    by_cases second : two
    · rw [if_pos second, if_pos (other.mp second)]
    · rwa [if_neg second, if_neg (fun holds => second (other.mpr holds))]

-- Stored tuples are searched with the tuple first, pending requests with the request first.
theorem name_cmp_symm (env : Platform) (name1 name2 : Bytes) :
    nameCmp env name1 name2 = 0 ↔ nameCmp env name2 name1 = 0 := by
  have raw : strcmp name1 name2 = 0 ↔ strcmp name2 name1 = 0 := by
    rw [strcmp_neg name1 name2]
    omega
  unfold nameCmp
  by_cases star1 : strcmp name1 ['*'.toUInt8] = 0
  · simp only [star1, if_true, ite_self]
  by_cases star2 : strcmp name2 ['*'.toUInt8] = 0
  · simp only [star2, if_true, ite_self]
  rw [if_neg star1, if_neg star2, if_neg star2, if_neg star1]
  apply tests_turned
  · exact fun colon1 noColon1 => noColon1.1 colon1.1
  · exact And.comm
  · exact And.comm
  · apply tests_turned
    · exact fun bang2 bang1 => bang1.2 bang2.1
    · exact Iff.rfl
    · exact Iff.rfl
    · exact raw

end Synergy
