import Synergy.Lib.Digits
import Mathlib.Data.List.TakeWhile

set_option autoImplicit false

namespace Synergy

abbrev Bytes := List UInt8

-- What ends a call before it returns: a zmq_recv or sem_wait that nothing has answered yet, a step
-- the C standard leaves undefined (a NULL or dangling pointer, an indeterminate byte), a failed assert, a
-- loop without end, an access to a slot that successor_list does not have.
inductive Stop where
  | blocked
  | undefined
  | aborted
  | diverges
  | outside (slot : Nat)
deriving DecidableEq, Repr

theorem bind_ok {α β : Type} (first : Except Stop α) (second : α → Except Stop β) (result : β)
    (done : (first >>= second) = .ok result) : ∃ middle, first = .ok middle ∧ second middle = .ok result := by
  cases first with
  | error stop => cases done
  | ok middle => exact ⟨middle, rfl, done⟩

inductive HostOrder where
  | little
  | big
deriving DecidableEq, Repr

-- The bytes of an unsigned integer object as they stand in memory, and the object read back.
def store (host : HostOrder) (width number : Nat) : Bytes :=
  match host with
  | .little => Digits.digits width number
  | .big => (Digits.digits width number).reverse

def load (host : HostOrder) (bytes : Bytes) : Nat :=
  match host with
  | .little => Digits.value bytes
  | .big => Digits.value bytes.reverse

@[simp] theorem store_length (host : HostOrder) (width number : Nat) : (store host width number).length = width := by
  cases host <;> simp [store]

theorem load_store (host : HostOrder) (width number : Nat) (small : number < 256 ^ width) :
    load host (store host width number) = number := by
  cases host <;> simp [load, store, Digits.value_digits, Nat.mod_eq_of_lt small]

theorem store_load (host : HostOrder) (bytes : Bytes) : store host bytes.length (load host bytes) = bytes := by
  cases host with
  | little => exact Digits.digits_value bytes
  | big =>
      have back := Digits.digits_value bytes.reverse
      rw [List.length_reverse] at back
      simp only [store, load, back, List.reverse_reverse]

theorem load_bound (host : HostOrder) (bytes : Bytes) : load host bytes < 256 ^ bytes.length := by
  cases host with
  | little => exact Digits.value_bound bytes
  | big => simpa only [load, List.length_reverse] using Digits.value_bound bytes.reverse

-- htonl yields the word whose bytes in memory are big-endian; ntohl undoes it.
def htonl (host : HostOrder) (word : Nat) : Nat := load host (store .big 4 word)
def ntohl (host : HostOrder) (word : Nat) : Nat := load .big (store host 4 word)

theorem store_htonl (host : HostOrder) (word : Nat) : store host 4 (htonl host word) = store .big 4 word := by
  simpa only [htonl, store_length] using store_load host (store .big 4 word)

theorem htonl_bound (host : HostOrder) (word : Nat) : htonl host word < 2 ^ 32 := by
  have bound := load_bound host (store .big 4 word)
  simp only [store_length] at bound
  exact bound

theorem ntohl_load (host : HostOrder) (bytes : Bytes) (four : bytes.length = 4) :
    ntohl host (load host bytes) = load .big bytes := by
  rw [ntohl, ← four, store_load]

-- The same for a word of two bytes.
def htons (host : HostOrder) (word : Nat) : Nat := load host (store .big 2 word)
def ntohs (host : HostOrder) (word : Nat) : Nat := load .big (store host 2 word)

theorem store_htons (host : HostOrder) (word : Nat) : store host 2 (htons host word) = store .big 2 word := by
  simpa only [htons, store_length] using store_load host (store .big 2 word)

theorem ntohs_load (host : HostOrder) (bytes : Bytes) (two : bytes.length = 2) :
    ntohs host (load host bytes) = load .big bytes := by
  rw [ntohs, ← two, store_load]

-- HTONLL(x): the test 1 == htonl(1) tells the two host orders apart.
def htonll (host : HostOrder) (word : Nat) : Nat :=
  if 1 = htonl host 1 then word
  else htonl host (word &&& 0xFFFFFFFF) <<< 32 ||| htonl host (word >>> 32 % 2 ^ 32)

def ntohll (host : HostOrder) (word : Nat) : Nat :=
  if 1 = ntohl host 1 then word
  else ntohl host (word &&& 0xFFFFFFFF) <<< 32 ||| ntohl host (word >>> 32 % 2 ^ 32)

theorem low_word (word : Nat) : word &&& 0xFFFFFFFF = word % 2 ^ 32 := Nat.and_two_pow_sub_one_eq_mod word 32

theorem join_words (low high : Nat) (lowBound : low < 2 ^ 32) : high <<< 32 ||| low = high * 2 ^ 32 + low := by
  rw [← Nat.shiftLeft_add_eq_or_of_lt lowBound, Nat.shiftLeft_eq]

theorem store_join (low high : Nat) (lowBound : low < 2 ^ 32) :
    store .little 8 (high <<< 32 ||| low) = store .little 4 low ++ store .little 4 high := by
  have lowDigits : Digits.digits 4 (high * 2 ^ 32 + low) = Digits.digits 4 low := by
    rw [← Digits.digits_mod 4 (high * 2 ^ 32 + low)]
    congr 1
    omega
  have highPart : (high * 2 ^ 32 + low) / 256 ^ 4 = high := by omega
  rw [join_words low high lowBound]
  simp only [store]
  rw [Digits.digits_append 4 4, lowDigits, highPart]

theorem big_split (word : Nat) : store .big 8 word = store .big 4 (word >>> 32) ++ store .big 4 (word % 2 ^ 32) := by
  have high : word / 256 ^ 4 = word >>> 32 := (Nat.shiftRight_eq_div_pow word 32).symm
  have low : Digits.digits 4 word = Digits.digits 4 (word % 2 ^ 32) := (Digits.digits_mod 4 word).symm
  simp only [store]
  rw [Digits.digits_append 4 4, high, low, List.reverse_append]

theorem store_htonll (host : HostOrder) (word : Nat) (small : word < 2 ^ 64) :
    store host 8 (htonll host word) = store .big 8 word := by
  cases host with
  | big => rfl
  | little =>
      have test : ¬ 1 = htonl .little 1 := by decide
      have high : word >>> 32 % 2 ^ 32 = word >>> 32 := by
        rw [Nat.shiftRight_eq_div_pow]
        omega
      rw [htonll, if_neg test, store_join _ _ (htonl_bound _ _), store_htonl, store_htonl, low_word, high, big_split]

theorem htonll_bound (host : HostOrder) (word : Nat) (small : word < 2 ^ 64) : htonll host word < 2 ^ 64 := by
  unfold htonll
  split
  · exact small
  · have low := htonl_bound host (word >>> 32 % 2 ^ 32)
    have high := htonl_bound host (word &&& 0xFFFFFFFF)
    rw [join_words _ _ low]
    omega

theorem ntohl_eq_htonl (host : HostOrder) (word : Nat) : ntohl host word = htonl host word := by
  cases host <;> rfl

theorem ntohll_eq_htonll (host : HostOrder) (word : Nat) : ntohll host word = htonll host word := by
  simp only [ntohll, htonll, ntohl_eq_htonl]

theorem ntohll_load (host : HostOrder) (bytes : Bytes) (eight : bytes.length = 8) :
    ntohll host (load host bytes) = load .big bytes := by
  have small : load host bytes < 2 ^ 64 := by
    have bound := load_bound host bytes
    rw [eight] at bound
    exact bound
  have stored := congrArg (load host) (store_htonll host (load host bytes) small)
  rw [load_store host 8 _ (htonll_bound host _ small)] at stored
  rw [ntohll_eq_htonll, stored]
  have back := store_load host bytes
  rw [eight] at back
  cases host with
  | big => rw [back]
  | little =>
      have turned : load .little (store .big 8 (load .little bytes)) = load .big (store .little 8 (load .little bytes)) := by
        simp only [load, store]
      rw [turned, back]

-- What sender's HTONLL leaves in its memory reads as word under receiver's NTOHLL.
theorem ntohll_htonll (sender receiver : HostOrder) (word : Nat) (small : word < 2 ^ 64) :
    ntohll receiver (load receiver (store sender 8 (htonll sender word))) = word := by
  have bytes : word < 256 ^ 8 := small
  rw [store_htonll sender word small, ntohll_load receiver _ (store_length .big 8 word), load_store .big 8 word bytes]

def p2pmSendUint16 (host : HostOrder) (s : UInt16) : Bytes := store host 2 (htons host s.toNat)
def p2pmSendUint32 (host : HostOrder) (s : UInt32) : Bytes := store host 4 (htonl host s.toNat)
def p2pmSendUint64 (host : HostOrder) (s : UInt64) : Bytes := store host 8 (htonll host s.toNat)

-- A frame shorter than the word leaves the rest of *recv as it was; a longer one is cut.
def p2pmRecvUint16 (host : HostOrder) (frame : Bytes) : Except Stop UInt16 :=
  if frame.length < 2 then .error .undefined
  else .ok (UInt16.ofNat (ntohs host (load host (frame.take 2))))

def p2pmRecvUint32 (host : HostOrder) (frame : Bytes) : Except Stop UInt32 :=
  if frame.length < 4 then .error .undefined
  else .ok (UInt32.ofNat (ntohl host (load host (frame.take 4))))

def p2pmRecvUint64 (host : HostOrder) (frame : Bytes) : Except Stop UInt64 :=
  if frame.length < 8 then .error .undefined
  else .ok (UInt64.ofNat (ntohll host (load host (frame.take 8))))

theorem send_uint16_wire (host : HostOrder) (s : UInt16) : p2pmSendUint16 host s = store .big 2 s.toNat :=
  store_htons host s.toNat

theorem send_uint32_wire (host : HostOrder) (s : UInt32) : p2pmSendUint32 host s = store .big 4 s.toNat :=
  store_htonl host s.toNat

theorem send_uint64_wire (host : HostOrder) (s : UInt64) : p2pmSendUint64 host s = store .big 8 s.toNat :=
  store_htonll host s.toNat s.toNat_lt

-- Sender and receiver may differ in host order.
@[simp] theorem recv_send_uint16 (sender receiver : HostOrder) (s : UInt16) :
    p2pmRecvUint16 receiver (p2pmSendUint16 sender s) = .ok s := by
  have two : (store .big 2 s.toNat).length = 2 := store_length _ _ _
  have whole : (store .big 2 s.toNat).take 2 = store .big 2 s.toNat := List.take_of_length_le (by omega)
  simp only [send_uint16_wire, p2pmRecvUint16, two, whole]
  rw [ntohs_load receiver _ two, load_store .big 2 _ s.toNat_lt]
  simp

@[simp] theorem recv_send_uint32 (sender receiver : HostOrder) (s : UInt32) :
    p2pmRecvUint32 receiver (p2pmSendUint32 sender s) = .ok s := by
  have four : (store .big 4 s.toNat).length = 4 := store_length _ _ _
  have whole : (store .big 4 s.toNat).take 4 = store .big 4 s.toNat := List.take_of_length_le (by omega)
  simp only [send_uint32_wire, p2pmRecvUint32, four, whole]
  rw [ntohl_load receiver _ four, load_store .big 4 _ s.toNat_lt]
  simp

@[simp] theorem recv_send_uint64 (sender receiver : HostOrder) (s : UInt64) :
    p2pmRecvUint64 receiver (p2pmSendUint64 sender s) = .ok s := by
  have eight : (store .big 8 s.toNat).length = 8 := store_length _ _ _
  have whole : (store .big 8 s.toNat).take 8 = store .big 8 s.toNat := List.take_of_length_le (by omega)
  simp only [send_uint64_wire, p2pmRecvUint64, eight, whole]
  rw [ntohll_load receiver _ eight, load_store .big 8 _ s.toNat_lt]
  simp

structure WireFormat {Word : Type} (width : Nat) (number : Word → Nat) (send : HostOrder → Word → Bytes)
    (recv : HostOrder → Bytes → Except Stop Word) : Prop where
  bigEndian : ∀ host s, send host s = store .big width (number s)
  returned : ∀ sender receiver s, recv receiver (send sender s) = .ok s

theorem integer_wire_codec :
    WireFormat 2 UInt16.toNat p2pmSendUint16 p2pmRecvUint16 ∧
    WireFormat 4 UInt32.toNat p2pmSendUint32 p2pmRecvUint32 ∧
    WireFormat 8 UInt64.toNat p2pmSendUint64 p2pmRecvUint64 ∧
    (∀ host (x : UInt64), ntohll host (htonll host x.toNat) = x.toNat) ∧
    ∀ sender receiver (x : UInt64), ntohll receiver (load receiver (store sender 8 (htonll sender x.toNat))) = x.toNat := by
  refine ⟨⟨send_uint16_wire, recv_send_uint16⟩, ⟨send_uint32_wire, recv_send_uint32⟩, ⟨send_uint64_wire, recv_send_uint64⟩, ?_, ?_⟩
  · intro host x
    have small : x.toNat < 2 ^ 64 := x.toNat_lt
    have kept := load_store host 8 (htonll host x.toNat) (htonll_bound host x.toNat small)
    have back := ntohll_htonll host host x.toNat small
    rwa [kept] at back
  · intro sender receiver x
    exact ntohll_htonll sender receiver x.toNat x.toNat_lt

-- The characters of a C string: everything before the first NUL.
def cstr (block : Bytes) : Bytes := block.takeWhile (· ≠ 0)

def NulFree (chars : Bytes) : Prop := 0 ∉ chars

instance (chars : Bytes) : Decidable (NulFree chars) := inferInstanceAs (Decidable (0 ∉ chars))

theorem cstr_nul_free (block : Bytes) : NulFree (cstr block) := by
  intro zero
  have nonzero := List.mem_takeWhile_imp zero
  simp at nonzero

theorem nul_free_letters (chars : Bytes) (clean : NulFree chars) : ∀ c ∈ chars, decide (c ≠ 0) = true := by
  intro c member
  simpa using fun zero : c = 0 => clean (zero ▸ member)

theorem cstr_append (chars more : Bytes) (clean : NulFree chars) : cstr (chars ++ more) = chars ++ cstr more :=
  List.takeWhile_append_of_pos (nul_free_letters chars clean)

theorem cstr_terminated (chars rest : Bytes) (clean : NulFree chars) : cstr (chars ++ 0 :: rest) = chars := by
  rw [cstr_append chars _ clean, cstr, List.takeWhile_cons_of_neg (by simp), List.append_nil]

theorem cstr_eq_self (chars : Bytes) : cstr chars = chars ↔ NulFree chars :=
  ⟨fun same => same ▸ cstr_nul_free chars, fun clean => List.takeWhile_eq_self_iff.mpr (nul_free_letters chars clean)⟩

theorem cstr_letter (c : UInt8) (rest : Bytes) (letter : c ≠ 0) : cstr (c :: rest) = c :: cstr rest :=
  List.takeWhile_cons_of_pos (by simpa using letter)

theorem cstr_zeros (count : Nat) : cstr (List.replicate count 0) = [] := List.takeWhile_replicate.trans (by simp)

-- A buffer of the given size that was zeroed and then filled by one zmq_recv, read as a C string.
def bufferString (size : Nat) (frame : Bytes) : Except Stop Bytes :=
  let filled := frame.take size
  if filled.length < size ∨ 0 ∈ filled then .ok (cstr filled) else .error .undefined

theorem buffer_string_short (size : Nat) (chars : Bytes) (clean : NulFree chars) (short : chars.length < size) :
    bufferString size chars = .ok chars := by
  have whole : chars.take size = chars := List.take_of_length_le (by omega)
  have kept : cstr chars = chars := (cstr_eq_self chars).mpr clean
  simp only [bufferString, whole, short, true_or, if_true, kept]

-- PSTRLEN(str) and the terminated characters.
def p2pmSendStr (host : HostOrder) (str : Bytes) : Bytes × Bytes :=
  (p2pmSendUint32 host (UInt32.ofNat (str.length + 1)), str ++ [0])

-- stralen is an int: from 2^31 on the size handed to malloc is a sign-extended one and bzero
-- gets NULL. realloc shrinks or grows the block to the size of the frame, of which only the announced
-- part was copied; a size of 0 frees the block twice. Every caller reads the result as a string.
def p2pmRecvStr (announced : UInt32) (frame : Bytes) : Except Stop Bytes :=
  if 2 ^ 31 ≤ announced.toNat ∨ frame = [] then .error .undefined
  else if 0 ∈ frame.take announced.toNat then .ok (cstr (frame.take announced.toNat))
  else .error .undefined

theorem recv_send_str (str : Bytes) (clean : NulFree str) :
    p2pmRecvStr (UInt32.ofNat (str.length + 1)) (str ++ [0]) = .ok str ∨
      p2pmRecvStr (UInt32.ofNat (str.length + 1)) (str ++ [0]) = .error .undefined := by
  by_cases whole : str.length + 1 ≤ (UInt32.ofNat (str.length + 1)).toNat
  · by_cases big : 2 ^ 31 ≤ (UInt32.ofNat (str.length + 1)).toNat
    · exact Or.inr (by simp only [p2pmRecvStr, big, true_or, if_true])
    · refine Or.inl ?_
      have taken : (str ++ [0]).take (UInt32.ofNat (str.length + 1)).toNat = str ++ [0] :=
        List.take_of_length_le (by simpa using whole)
      have notEmpty : ¬ (str ++ [0] = []) := by simp
      simp only [p2pmRecvStr, big, notEmpty, or_self, if_false, taken]
      rw [if_pos (by simp), cstr_terminated str [] clean]
  · refine Or.inr ?_
    have cut : 0 ∉ (str ++ [0]).take (UInt32.ofNat (str.length + 1)).toNat := by
      rw [List.take_append_of_le_length (by omega)]
      exact fun member => clean (List.mem_of_mem_take member)
    simp only [p2pmRecvStr, cut, if_false, ite_self]

theorem recv_send_str_short (str : Bytes) (clean : NulFree str) (short : str.length + 1 < 2 ^ 31) :
    p2pmRecvStr (UInt32.ofNat (str.length + 1)) (str ++ [0]) = .ok str := by
  have exact : (UInt32.ofNat (str.length + 1)).toNat = str.length + 1 := by
    rw [UInt32.toNat_ofNat']
    omega
  have taken : (str ++ [0]).take (str.length + 1) = str ++ [0] := List.take_of_length_le (by simp)
  have notBig : ¬ (2 ^ 31 ≤ str.length + 1 ∨ str ++ [0] = []) := by simp; omega
  rw [p2pmRecvStr, exact, if_neg notBig, taken, if_pos (by simp), cstr_terminated str [] clean]

end Synergy
