import Mathlib.Data.List.Basic

set_option autoImplicit false

-- Messages of one or more frames on one stream: every frame but the last announces another.
namespace Multipart

universe u

variable {φ : Type u} (more : φ → Bool)

def Message (message : List φ) : Prop :=
  ∃ front last, message = front ++ [last] ∧ (∀ frame ∈ front, more frame = true) ∧ more last = false

-- The stream is a sequence of good messages, and none is under way at its end.
def Complete (good : List φ → Prop) (frames : List φ) : Prop :=
  ∃ messages : List (List φ), frames = messages.flatten ∧ ∀ message ∈ messages, Message more message ∧ good message

-- What a receiver makes of the frames that follow those it has kept: a message goes on once its last
-- frame is there, and what comes after an unfinished one is joined to it.
def receive : List φ → List φ → List (List φ) × List φ
  | kept, [] => ([], kept)
  | kept, frame :: later =>
      if more frame then receive (kept ++ [frame]) later
      else ((kept ++ [frame]) :: (receive [] later).1, (receive [] later).2)

theorem message_last (last : φ) (ends : more last = false) : Message more [last] := ⟨[], last, rfl, by simp, ends⟩

theorem message_cons (frame : φ) (message : List φ) (announces : more frame = true) (whole : Message more message) :
    Message more (frame :: message) := by
  obtain ⟨front, last, same, announce, ends⟩ := whole
  exact ⟨frame :: front, last, by rw [same, List.cons_append], List.forall_mem_cons.mpr ⟨announces, announce⟩, ends⟩

theorem complete_nil (good : List φ → Prop) : Complete more good [] := ⟨[], rfl, by simp⟩

theorem complete_message (good : List φ → Prop) (message : List φ) (whole : Message more message) (fine : good message) :
    Complete more good message := ⟨[message], by simp, by simp [whole, fine]⟩

theorem complete_append (good : List φ → Prop) (first second : List φ) (one : Complete more good first)
    (two : Complete more good second) : Complete more good (first ++ second) := by
  obtain ⟨front, same, frontGood⟩ := one
  obtain ⟨back, sameBack, backGood⟩ := two
  refine ⟨front ++ back, by rw [same, sameBack, List.flatten_append], fun message member => ?_⟩
  rcases List.mem_append.mp member with early | late
  · exact frontGood message early
  · exact backGood message late

theorem complete_weaken (good fair : List φ → Prop) (frames : List φ) (weaker : ∀ message, good message → fair message)
    (complete : Complete more good frames) : Complete more fair frames := by
  obtain ⟨messages, same, each⟩ := complete
  exact ⟨messages, same, fun message member => ⟨(each message member).1, weaker message (each message member).2⟩⟩

theorem complete_last (good : List φ → Prop) (front : List φ) (last : φ) (complete : Complete more good (front ++ [last])) :
    more last = false := by
  obtain ⟨messages, same, each⟩ := complete
  cases shape : messages.reverse with
  | nil =>
      have none : messages = [] := by simpa using shape
      simp [none] at same
  | cons message others =>
      have split : messages = others.reverse ++ [message] := by
        rw [← List.reverse_reverse messages, shape, List.reverse_cons]
      obtain ⟨⟨inner, final, whole, _, ends⟩, _⟩ := each message (by simp [split])
      rw [split, whole, List.flatten_append, List.flatten_singleton, ← List.append_assoc] at same
      have sameLast : last = final := (List.append_inj' same rfl).2 |> List.singleton_injective
      rw [sameLast, ends]

theorem receive_front (kept front later : List φ) (announce : ∀ frame ∈ front, more frame = true) :
    receive more kept (front ++ later) = receive more (kept ++ front) later := by
  induction front generalizing kept with
  | nil => simp
  | cons frame front ih =>
      have head := announce frame (by simp)
      simp only [List.cons_append, receive, head, if_true]
      rw [ih (kept ++ [frame]) fun other member => announce other (by simp [member])]
      simp

theorem receive_message (message later : List φ) (whole : Message more message) :
    receive more [] (message ++ later) = (message :: (receive more [] later).1, (receive more [] later).2) := by
  obtain ⟨front, last, same, announce, ends⟩ := whole
  rw [same, List.append_assoc, receive_front more [] front _ announce]
  simp [receive, ends]

theorem receive_messages (messages : List (List φ)) (whole : ∀ message ∈ messages, Message more message) :
    receive more [] messages.flatten = (messages, []) := by
  induction messages with
  | nil => rfl
  | cons message messages ih =>
      rw [List.flatten_cons, receive_message more message _ (whole message (by simp)),
        ih fun other member => whole other (by simp [member])]

end Multipart
