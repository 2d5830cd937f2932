import Synergy.Handlers
import Synergy.HashRuns

set_option autoImplicit false

namespace Synergy

-- The space_table of a tsd_t, whose data are the addresses of elements that tsd_create has allocated.
structure SpaceMemory where
  table : HashTable
  elements : UInt64 → Option TsdElement

-- The loop of tsd_create from its ith round on. malloc i is the address the ith element gets.
def createElements (malloc : Nat → UInt64) : Nat → List SngNamespace → SpaceMemory → Except Stop SpaceMemory
  | _, [], memory => .ok memory
  | i, space :: rest, memory => do
      let elements := Function.update memory.elements (malloc i) (some (createElement space))
      let (table, _) ← hashInsert memory.table space.name (malloc i)
      createElements malloc (i + 1) rest ⟨table, elements⟩

def createSpaceTable (malloc : Nat → UInt64) (spaces : List SngNamespace) : Except Stop SpaceMemory := do
  createElements malloc 0 spaces ⟨← allocateHashTable, fun _ => none⟩

-- What the handlers do with it: HashFind and what item->data points to, which they may change.
inductive SpaceAccess where
  | find (spaceName : Bytes)
  | change (spaceName : Bytes) (after : TsdElement)

def SpaceMemory.access (memory : SpaceMemory) (call : SpaceAccess) : Except Stop (SpaceMemory × Option TsdElement) := do
  let spaceName := match call with
    | .find spaceName => spaceName
    | .change spaceName _ => spaceName
  match ← hashFind memory.table spaceName with
  | (table, none) => return ({ memory with table := table }, none)
  | (table, some entry) =>
      let item ← bucketAt table.table entry
      match memory.elements item.data with
      | none => .error .undefined
      | some element =>
          match call with
          | .find _ => return ({ memory with table := table }, some element)
          | .change _ after => return (⟨table, Function.update memory.elements item.data (some after)⟩, some element)

def SpaceMemory.accesses (memory : SpaceMemory) : List SpaceAccess → Except Stop (SpaceMemory × List (Option TsdElement))
  | [] => .ok (memory, [])
  | call :: rest => do
      let (next, element) ← memory.access call
      let (last, elements) ← next.accesses rest
      return (last, element :: elements)

-- The same on the table of a Tsd, where a handler's change is Function.update.
def tableAccess (spaceTable : Bytes → Option TsdElement) : SpaceAccess → (Bytes → Option TsdElement) × Option TsdElement
  | .find spaceName => (spaceTable, spaceTable spaceName)
  | .change spaceName after =>
      match spaceTable spaceName with
      | none => (spaceTable, none)
      | some element => (Function.update spaceTable spaceName (some after), some element)

def tableAccesses (spaceTable : Bytes → Option TsdElement) : List SpaceAccess → (Bytes → Option TsdElement) × List (Option TsdElement)
  | [] => (spaceTable, [])
  | call :: rest =>
      ((tableAccesses (tableAccess spaceTable call).1 rest).1,
        (tableAccess spaceTable call).2 :: (tableAccesses (tableAccess spaceTable call).1 rest).2)

-- The items of the table lead to the elements of the spaces, each to its own.
structure Leads (memory : SpaceMemory) (map : Bytes → Option UInt64) (spaceTable : Bytes → Option TsdElement) : Prop where
  serves : Serves memory.table map
  finds : ∀ name, spaceTable name = (map name).bind memory.elements
  there : ∀ name address, map name = some address → (memory.elements address).isSome = true
  apart : ∀ name other address, map name = some address → map other = some address → name = other

theorem leads_put {memory : SpaceMemory} {map : Bytes → Option UInt64} {spaceTable : Bytes → Option TsdElement}
    (leads : Leads memory map spaceTable) (table : HashTable) (name : Bytes) (address : UInt64) (element : TsdElement)
    (serves : Serves table (Function.update map name (some address)))
    (fresh : ∀ other a, other ≠ name → map other = some a → a ≠ address) :
    Leads ⟨table, Function.update memory.elements address (some element)⟩ (Function.update map name (some address))
      (Function.update spaceTable name (some element)) where
  serves := serves
  finds := by
    intro other
    dsimp only
    by_cases same : other = name
    · rw [same, Function.update_self, Function.update_self, Option.bind_some, Function.update_self]
    · rw [Function.update_of_ne same, Function.update_of_ne same, leads.finds]
      cases stored : map other with
      | none => rfl
      | some a => rw [Option.bind_some, Option.bind_some, Function.update_of_ne (fresh other a same stored)]
  there := by
    intro other a
    dsimp only
    by_cases same : other = name
    · rw [same, Function.update_self]
      rintro ⟨⟩
      rw [Function.update_self, Option.isSome_some]
    · rw [Function.update_of_ne same]
      intro stored
      rw [Function.update_of_ne (fresh other a same stored)]
      exact leads.there other a stored
  apart := by
    intro one other a
    by_cases same : one = name <;> by_cases again : other = name
    · exact fun _ _ => same.trans again.symm
    · rw [same, Function.update_self, Function.update_of_ne again]
      rintro ⟨⟩ stored
      exact absurd rfl (fresh other _ again stored)
    · rw [again, Function.update_self, Function.update_of_ne same]
      rintro stored ⟨⟩
      exact absurd rfl (fresh one _ same stored)
    · rw [Function.update_of_ne same, Function.update_of_ne again]
      exact leads.apart one other a

theorem access_leads (memory : SpaceMemory) (map : Bytes → Option UInt64) (spaceTable : Bytes → Option TsdElement)
    (leads : Leads memory map spaceTable) (call : SpaceAccess) :
    ∃ next, memory.access call = .ok (next, (tableAccess spaceTable call).2) ∧ Leads next map (tableAccess spaceTable call).1 := by
  have find := find_serves memory.table map leads.serves
  have absent : ∀ spaceName, map spaceName = none → spaceTable spaceName = none := fun spaceName none_ => by
    rw [leads.finds, none_, Option.bind_none]
  have present : ∀ spaceName address, map spaceName = some address → ∃ element, memory.elements address = some element ∧
      spaceTable spaceName = some element := fun spaceName address stored => by
    obtain ⟨element, held⟩ := Option.isSome_iff_exists.mp (leads.there spaceName address stored)
    exact ⟨element, held, by rw [leads.finds, stored, Option.bind_some, held]⟩
  cases call with
  | find spaceName =>
      obtain ⟨item, place, done, serves, answer⟩ := find spaceName
      refine ⟨⟨{ memory.table with posLastFind := .ok item }, memory.elements⟩, ?_, serves, leads.finds, leads.there, leads.apart⟩
      cases stored : map spaceName with
      | none =>
          rw [stored] at answer
          obtain rfl := answer
          simp only [SpaceMemory.access, hashFind, done, bind, Except.bind, pure, Except.pure, tableAccess, absent spaceName stored]
      | some address =>
          rw [stored] at answer
          obtain ⟨bck, rfl, read, -⟩ := answer
          obtain ⟨element, held, found⟩ := present spaceName address stored
          simp only [SpaceMemory.access, hashFind, done, bind, Except.bind, pure, Except.pure, read, held, tableAccess, found]
  | change spaceName after =>
      obtain ⟨item, place, done, serves, answer⟩ := find spaceName
      cases stored : map spaceName with
      | none =>
          rw [stored] at answer
          obtain rfl := answer
          rw [tableAccess, absent spaceName stored]
          refine ⟨⟨{ memory.table with posLastFind := .ok none }, memory.elements⟩, ?_, serves, leads.finds, leads.there, leads.apart⟩
          simp only [SpaceMemory.access, hashFind, done, bind, Except.bind, pure, Except.pure]
      | some address =>
          rw [stored] at answer
          obtain ⟨bck, rfl, read, -⟩ := answer
          obtain ⟨element, held, found⟩ := present spaceName address stored
          rw [tableAccess, found]
          have same : Function.update map spaceName (some address) = map := by rw [← stored, Function.update_eq_self]
          rw [← same] at serves
          have put := leads_put leads { memory.table with posLastFind := .ok (some bck) } spaceName address after serves
            fun other a different elsewhere equal => different (leads.apart other spaceName address (equal ▸ elsewhere) stored)
          rw [same] at put
          refine ⟨⟨{ memory.table with posLastFind := .ok (some bck) }, Function.update memory.elements address (some after)⟩, ?_, put⟩
          simp only [SpaceMemory.access, hashFind, done, bind, Except.bind, pure, Except.pure, read, held]

theorem accesses_lead (calls : List SpaceAccess) (memory : SpaceMemory) (map : Bytes → Option UInt64)
    (spaceTable : Bytes → Option TsdElement) (leads : Leads memory map spaceTable) :
    ∃ last, memory.accesses calls = .ok (last, (tableAccesses spaceTable calls).2) ∧ Leads last map (tableAccesses spaceTable calls).1 := by
  induction calls generalizing memory spaceTable with
  | nil => exact ⟨memory, rfl, leads⟩
  | cons call rest ih =>
      obtain ⟨next, done, leads'⟩ := access_leads memory map spaceTable leads call
      obtain ⟨last, ran, led⟩ := ih next _ leads'
      exact ⟨last, by simp only [SpaceMemory.accesses, done, bind, Except.bind, ran, pure, Except.pure, tableAccesses], led⟩

-- The blocks of the elements are apart from each other, and none is the address that marks a deleted bucket.
structure Addresses (malloc : Nat → UInt64) (n : Nat) : Prop where
  live : ∀ i < n, malloc i ≠ DELETED
  apart : ∀ i < n, ∀ j < n, malloc i = malloc j → i = j

theorem create_leads (malloc : Nat → UInt64) (spaces : List SngNamespace) (i : Nat) (memory : SpaceMemory) (map : Bytes → Option UInt64)
    (spaceTable : Bytes → Option TsdElement) (leads : Leads memory map spaceTable) (addresses : Addresses malloc (i + spaces.length))
    (used : ∀ name address, map name = some address → ∃ j < i, address = malloc j)
    (bounded : memory.table.cItems + spaces.length < 2 ^ 28) :
    ∃ last final, createElements malloc i spaces memory = .ok last ∧
      Leads last final (spaces.foldl (fun table space => Function.update table space.name (some (createElement space))) spaceTable) := by
  induction spaces generalizing i memory map spaceTable with
  | nil => exact ⟨memory, map, rfl, leads⟩
  | cons space rest ih =>
      rw [List.length_cons] at addresses bounded
      have fresh : ∀ name address, map name = some address → address ≠ malloc i := by
        intro name address stored same
        obtain ⟨j, less, rfl⟩ := used name address stored
        have := addresses.apart j (by omega) i (by omega) same
        omega
      obtain ⟨table, bck, done, serves, -, items, -⟩ := insert_serves memory.table map leads.serves space.name (malloc i)
        (addresses.live i (by omega)) (by omega)
      have leads' := leads_put leads table space.name (malloc i) (createElement space) serves fun other a _ => fresh other a
      obtain ⟨last, final, ran, led⟩ := ih (i + 1) _ _ _ leads' (by rwa [Nat.add_assoc, Nat.add_comm 1])
        (fun name address => by
          by_cases same : name = space.name
          · rw [same, Function.update_self]
            rintro ⟨⟩
            exact ⟨i, Nat.lt_succ_self i, rfl⟩
          · rw [Function.update_of_ne same]
            intro stored
            obtain ⟨j, less, equal⟩ := used name address stored
            exact ⟨j, Nat.lt_succ_of_lt less, equal⟩)
        (by dsimp only; omega)
      exact ⟨last, final, by simp only [createElements, done, bind, Except.bind, ran], led⟩

-- What the handlers see of the hash table that tsd_create fills is the table of the daemon's model.
theorem space_table_refines (malloc : Nat → UInt64) (endpoint : Bytes) (replicationFactor : UInt32) (spaces : List SngNamespace)
    (addresses : Addresses malloc spaces.length) (few : spaces.length < 2 ^ 28) (calls : List SpaceAccess) :
    ∃ memory last, createSpaceTable malloc spaces = .ok memory ∧
      memory.accesses calls = .ok (last, (tableAccesses (tsdCreate endpoint replicationFactor spaces).spaceTable calls).2) := by
  obtain ⟨ht, made, holds, items, goal, -⟩ := allocate_table
  have small : ht.cBuckets < 1024 := by
    rw [holds.size]
    decide
  have leads : Leads ⟨ht, fun _ => none⟩ (fun _ => none) fun _ => none :=
    ⟨⟨⟨9, holds⟩, goal, .inl small⟩, fun _ => rfl, fun _ _ none_ => (by cases none_), fun _ _ _ none_ => (by cases none_)⟩
  obtain ⟨memory, map, created, led⟩ := create_leads malloc spaces 0 _ _ _ leads (by rwa [Nat.zero_add]) (fun _ _ none_ => by cases none_)
    (by dsimp only; omega)
  obtain ⟨last, ran, -⟩ := accesses_lead calls memory map _ led
  exact ⟨memory, last, by simp only [createSpaceTable, made, bind, Except.bind, created], ran⟩

-- Two spaces, and a second description of the first.
def sampleThree : List SngNamespace :=
  [⟨[97], [101], .master, .direct⟩, ⟨[98], [101], .master, .token⟩, ⟨[97], [102], .p2p, .token⟩]

theorem space_table_refines_three : ∃ memory last, createSpaceTable (fun i => UInt64.ofNat (64 * (i + 1))) sampleThree = .ok memory ∧
    memory.accesses [.find [97], .change [98] (createElement ⟨[98], [103], .master, .token⟩), .find [98], .find [99]] = .ok (last,
      [some (createElement ⟨[97], [102], .p2p, .token⟩), some (createElement ⟨[98], [101], .master, .token⟩),
       some (createElement ⟨[98], [103], .master, .token⟩), none]) := by
  have addresses : Addresses (fun i => UInt64.ofNat (64 * (i + 1))) sampleThree.length := ⟨by decide, by decide⟩
  exact space_table_refines _ [101] 1 sampleThree addresses (by decide) _

end Synergy
