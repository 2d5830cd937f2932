import Mathlib.Data.List.Basic

set_option autoImplicit false

-- A place that is open or shut. Who comes is shown in at once or waits; who waits is shown in when it opens next.
namespace Lobbies

universe u v

structure Lobby (κ : Type u) (α : Type v) where
  place : Option α
  waiting : List κ
  shown : List (κ × α)

inductive Event (κ : Type u) (α : Type v) where
  | comes (guest : κ)
  | opens (place : α)
  | shuts

variable {κ : Type u} {α : Type v}

def Event.guests : Event κ α → List κ
  | .comes guest => [guest]
  | _ => []

-- A place that is open stays the same until it has been shut.
def Lobby.step (lobby : Lobby κ α) : Event κ α → Lobby κ α
  | .comes guest =>
      match lobby.place with
      | some place => { lobby with shown := lobby.shown ++ [(guest, place)] }
      | none => { lobby with waiting := lobby.waiting ++ [guest] }
  | .opens place =>
      match lobby.place with
      | some _ => lobby
      | none => { place := some place, waiting := [], shown := lobby.shown ++ lobby.waiting.map fun guest => (guest, place) }
  | .shuts => { lobby with place := none }

-- Nobody waits for a place that is open.
def Lobby.Empties (lobby : Lobby κ α) : Prop := lobby.place ≠ none → lobby.waiting = []

-- Everyone who has come, in the order of their coming: those shown in first.
def Lobby.guests (lobby : Lobby κ α) : List κ := lobby.shown.map Prod.fst ++ lobby.waiting

theorem step_empties (lobby : Lobby κ α) (event : Event κ α) (empties : lobby.Empties) : (lobby.step event).Empties := by
  cases event with
  | comes guest =>
      cases place : lobby.place with
      | some place => simpa only [Lobby.Empties, Lobby.step, place] using empties
      | none => simp [Lobby.Empties, Lobby.step, place]
  | opens new =>
      cases place : lobby.place with
      | some place => simpa only [Lobby.Empties, Lobby.step, place] using empties
      | none => simp [Lobby.Empties, Lobby.step, place]
  | shuts => exact fun shut => absurd rfl shut

theorem step_guests (lobby : Lobby κ α) (event : Event κ α) (empties : lobby.Empties) :
    (lobby.step event).guests = lobby.guests ++ event.guests := by
  cases event with
  | comes guest =>
      cases place : lobby.place with
      | some open_ =>
          have nobody : lobby.waiting = [] := empties (by rw [place]; exact Option.some_ne_none _)
          simp [Lobby.guests, Lobby.step, Event.guests, place, nobody]
      | none => simp [Lobby.guests, Lobby.step, Event.guests, place]
  | opens new =>
      cases place : lobby.place with
      | some open_ => simp [Lobby.guests, Lobby.step, Event.guests, place]
      | none => simp [Lobby.guests, Lobby.step, Event.guests, place, Function.comp_def]
  | shuts => simp [Lobby.guests, Lobby.step, Event.guests]

end Lobbies
