import Synergy.Handlers
import Synergy.Lib.Simulation
import Synergy.Pipe

set_option autoImplicit false

namespace Synergy

-- From the clients of a space to its daemon, and back.
inductive PipeWay where
  | push | pull
deriving DecidableEq

def PipeWay.suffix : PipeWay → Bytes
  | .push => ['-', 'p', 'u', 's', 'h'].map Char.toUInt8
  | .pull => ['-', 'p', 'u', 'l', 'l'].map Char.toUInt8

def rsemSuffix : Bytes := ['-', 'r', 's', 'e', 'm'].map Char.toUInt8

def wsemSuffix : Bytes := ['-', 'w', 's', 'e', 'm'].map Char.toUInt8

structure PipeNames where
  name : Bytes
  rsemName : Bytes
  wsemName : Bytes
deriving DecidableEq

-- sprintf to a char[50] of a string and what stands behind %s.
def sprintf (str suffix : Bytes) : Except Stop Bytes :=
  if (str ++ suffix).length < 50 then .ok (str ++ suffix) else .error (.outside (str ++ suffix).length)

def pipeNames (spaceName : Bytes) (way : PipeWay) : Except Stop PipeNames := do
  let name ← sprintf spaceName way.suffix
  let rsemName ← sprintf name rsemSuffix
  let wsemName ← sprintf name wsemSuffix
  return ⟨name, rsemName, wsemName⟩

def slash : UInt8 := '/'.toUInt8

def plainName (name : Bytes) : Bytes := name.dropWhile (· = slash)

-- sem_open, shm_open and what unlinks skip the slashes in front, and refuse a name with one behind them or nothing behind them.
def objectName (name : Bytes) : Option Bytes :=
  if plainName name = [] ∨ slash ∈ plainName name then none else some (plainName name)

-- The named semaphores and segments of a host.
structure SharedObjects where
  semaphores : Bytes → Option Nat
  segments : Bytes → Option Segment

def noObjects : SharedObjects := ⟨fun _ => none, fun _ => none⟩

-- sem_open with O_CREAT: one that is there keeps its value. granted is what the system says to a name that may stand.
def SharedObjects.semOpen (self : SharedObjects) (granted : Bool) (name : Bytes) (value : Nat) : Option SharedObjects :=
  match objectName name with
  | none => none
  | some plain =>
      if granted then
        some { self with semaphores := Function.update self.semaphores plain (some ((self.semaphores plain).getD value)) }
      else none

-- shm_open with O_CREAT, with the MAX_BYTES zeros that ftruncate makes of a new one.
def SharedObjects.shmOpen (self : SharedObjects) (granted : Bool) (name : Bytes) : Option SharedObjects :=
  match objectName name with
  | none => none
  | some plain =>
      if granted then
        some { self with segments := Function.update self.segments plain (some ((self.segments plain).getD Segment.zeroed)) }
      else none

def SharedObjects.semUnlink (self : SharedObjects) (name : Bytes) : SharedObjects :=
  match objectName name with
  | none => self
  | some plain => { self with semaphores := Function.update self.semaphores plain none }

def SharedObjects.shmUnlink (self : SharedObjects) (name : Bytes) : SharedObjects :=
  match objectName name with
  | none => self
  | some plain => { self with segments := Function.update self.segments plain none }

-- Which of the calls of one attaching the system grants. An ftruncate that fails with EINVAL counts as granted: it goes on, and is what a
-- segment that has its size already may give.
structure Grants where
  wSem : Bool
  rSem : Bool
  shm : Bool
  truncate : Bool
  map : Bool
deriving DecidableEq

def Grants.all : Grants := ⟨true, true, true, true, true⟩

def SharedObjects.unlinkAll (self : SharedObjects) (names : PipeNames) : SharedObjects :=
  ((self.semUnlink names.wsemName).semUnlink names.rsemName).shmUnlink names.name

-- The objects afterwards and the return value. A failure unlinks what it may have made, whoever made it.
def attachSharedMemory (self : SharedObjects) (grants : Grants) (names : PipeNames) : SharedObjects × Int :=
  match self.semOpen grants.wSem names.wsemName 1 with
  | none => (self.semUnlink names.wsemName, 1)
  | some self =>
      match self.semOpen grants.rSem names.rsemName 0 with
      | none => ((self.semUnlink names.wsemName).semUnlink names.rsemName, 1)
      | some self =>
          match self.shmOpen grants.shm names.name with
          | none => (self.unlinkAll names, 1)
          | some self => if grants.truncate ∧ grants.map then (self, 0) else (self.unlinkAll names, 1)

-- The two differ in their preconditions and in the order in which they unlink.
def createSharedMemory (self : SharedObjects) (grants : Grants) (names : PipeNames) : SharedObjects × Int :=
  attachSharedMemory self grants names

def openSharedMemory (self : SharedObjects) (grants : Grants) (names : PipeNames) : SharedObjects × Int :=
  attachSharedMemory self grants names

-- A space, and what the system grants for its two pipes.
structure GrantedSpace where
  space : SngNamespace
  grants : PipeWay → Grants

-- The loop of tsd_create, with its return value.
def tsdAttach (self : SharedObjects) : List GrantedSpace → Except Stop (SharedObjects × Int)
  | [] => .ok (self, 0)
  | config :: later => do
      let tsdTsName ← pipeNames config.space.name .pull
      let tsTsdName ← pipeNames config.space.name .push
      let (self, rt) := createSharedMemory self (config.grants .pull) tsdTsName
      if rt ≠ 0 then return (self, 1)
      let (self, rt) := openSharedMemory self (config.grants .push) tsTsdName
      if rt ≠ 0 then return (self, 1)
      tsdAttach self later

-- ts_open, once the daemon has answered with a mode.
def tsAttach (self : SharedObjects) (grants : PipeWay → Grants) (spaceName : Bytes) (mode : UInt32) :
    Except Stop (SharedObjects × Int) := do
  let tsTsdName ← pipeNames spaceName .push
  let tsdTsName ← pipeNames spaceName .pull
  if mode = tsModeMaster then
    let (self, rt) := createSharedMemory self (grants .push) tsTsdName
    if rt ≠ 0 then return (self, 1)
    let (self, rt) := openSharedMemory self (grants .pull) tsdTsName
    if rt ≠ 0 then return (self, 1)
    return (self, 0)
  else return (self, 0)

structure SharedPipe where
  rSem : Nat
  wSem : Nat
  segment : Segment

def SharedPipe.start : SharedPipe := ⟨0, 1, Segment.zeroed⟩

def SharedObjects.pipe (self : SharedObjects) (names : PipeNames) : Option SharedPipe := do
  let rSem ← self.semaphores (← objectName names.rsemName)
  let wSem ← self.semaphores (← objectName names.wsemName)
  let segment ← self.segments (← objectName names.name)
  return ⟨rSem, wSem, segment⟩

def SharedObjects.put (self : SharedObjects) (names : PipeNames) (shared : SharedPipe) : SharedObjects :=
  { semaphores := Function.update (Function.update self.semaphores (plainName names.wsemName) (some shared.wSem))
      (plainName names.rsemName) (some shared.rSem)
    segments := Function.update self.segments (plainName names.name) (some shared.segment) }

-- A daemon starts, a client opens a space, or somebody does something to a pipe that is there: waits, posts or writes.
inductive AttachMove where
  | daemon (spaces : List GrantedSpace)
  | client (grants : PipeWay → Grants) (spaceName : Bytes) (mode : UInt32)
  | uses (spaceName : Bytes) (way : PipeWay) (change : SharedPipe → SharedPipe)

def SharedObjects.step (self : SharedObjects) : AttachMove → Option SharedObjects
  | .daemon spaces => (tsdAttach self spaces).toOption.map Prod.fst
  | .client grants spaceName mode => (tsAttach self grants spaceName mode).toOption.map Prod.fst
  | .uses spaceName way change =>
      match pipeNames spaceName way with
      | .error _ => none
      | .ok names => (self.pipe names).map fun shared => self.put names (change shared)

-- What they are for: a pair of pipes for each name, each there from the first time somebody attaches to it.
def SpacePipes : Type := Bytes → PipeWay → Option SharedPipe

def SpacePipes.set (self : SpacePipes) (spaceName : Bytes) (way : PipeWay) (shared : SharedPipe) : SpacePipes :=
  fun other direction => if other = spaceName ∧ direction = way then some shared else self other direction

def SpacePipes.attach (self : SpacePipes) (spaceName : Bytes) (way : PipeWay) : SpacePipes :=
  self.set spaceName way ((self spaceName way).getD SharedPipe.start)

def SpacePipes.attachBoth (self : SpacePipes) (spaceName : Bytes) : SpacePipes :=
  fun other direction => if other = spaceName then some ((self other direction).getD SharedPipe.start) else self other direction

def SpacePipes.step (self : SpacePipes) : AttachMove → Option SpacePipes
  | .daemon spaces => some (spaces.foldl (fun pipes config => pipes.attachBoth (plainName config.space.name)) self)
  | .client _ spaceName mode => if mode = tsModeMaster then some (self.attachBoth (plainName spaceName)) else some self
  | .uses spaceName way change =>
      (self (plainName spaceName) way).map fun shared => self.set (plainName spaceName) way (change shared)

theorem pipe_names_iff (spaceName : Bytes) (way : PipeWay) (names : PipeNames) :
    pipeNames spaceName way = .ok names ↔ spaceName.length < 40 ∧
      names = ⟨spaceName ++ way.suffix, spaceName ++ way.suffix ++ rsemSuffix, spaceName ++ way.suffix ++ wsemSuffix⟩ := by
  have five : way.suffix.length = 5 := by cases way <;> rfl
  have rsem : rsemSuffix.length = 5 := rfl
  have wsem : wsemSuffix.length = 5 := rfl
  unfold pipeNames sprintf
  by_cases short : spaceName.length < 40
  · have name : (spaceName ++ way.suffix).length < 50 := by rw [List.length_append]; omega
    have rsemName : (spaceName ++ way.suffix ++ rsemSuffix).length < 50 := by rw [List.length_append, List.length_append]; omega
    have wsemName : (spaceName ++ way.suffix ++ wsemSuffix).length < 50 := by rw [List.length_append, List.length_append]; omega
    simp only [if_pos name, if_pos rsemName, if_pos wsemName, bind, Except.bind, pure, Except.pure, Except.ok.injEq, short, true_and]
    exact eq_comm
  · have rsemName : ¬ (spaceName ++ way.suffix ++ rsemSuffix).length < 50 := by rw [List.length_append, List.length_append]; omega
    constructor
    · intro done
      by_cases name : (spaceName ++ way.suffix).length < 50
      · simp only [if_pos name, if_neg rsemName, bind, Except.bind] at done
        cases done
      · simp only [if_neg name, bind, Except.bind] at done
        cases done
    · exact fun both => absurd both.1 short

theorem segment_name_injective (one two : Bytes) (way other : PipeWay) (same : one ++ way.suffix = two ++ other.suffix) :
    one = two ∧ way = other := by
  have five : ∀ way : PipeWay, way.suffix.length = 5 := by intro way; cases way <;> rfl
  obtain ⟨names, suffixes⟩ := List.append_inj' same ((five way).trans (five other).symm)
  refine ⟨names, ?_⟩
  cases way <;> cases other
  · rfl
  · cases suffixes
  · cases suffixes
  · rfl

theorem semaphore_name_injective (one two : Bytes) (way other : PipeWay) (suffix : Bytes)
    (same : one ++ way.suffix ++ suffix = two ++ other.suffix ++ suffix) : one = two ∧ way = other :=
  segment_name_injective one two way other (List.append_cancel_right same)

theorem semaphore_names_apart (one two : Bytes) : one ++ rsemSuffix ≠ two ++ wsemSuffix := by
  intro same
  have suffixes := (List.append_inj' same rfl).2
  cases suffixes

structure Represents (objects : SharedObjects) (pipes : SpacePipes) : Prop where
  rsem : ∀ spaceName way, objects.semaphores (spaceName ++ way.suffix ++ rsemSuffix) = (pipes spaceName way).map SharedPipe.rSem
  wsem : ∀ spaceName way, objects.semaphores (spaceName ++ way.suffix ++ wsemSuffix) = (pipes spaceName way).map SharedPipe.wSem
  segment : ∀ spaceName way, objects.segments (spaceName ++ way.suffix) = (pipes spaceName way).map SharedPipe.segment

theorem object_name (spaceName suffix : Bytes) (plain : slash ∉ plainName spaceName) (some_ : suffix ≠ []) (letters : slash ∉ suffix) :
    objectName (spaceName ++ suffix) = some (plainName spaceName ++ suffix) := by
  have first : plainName suffix = suffix := by
    cases suffix with
    | nil => exact absurd rfl some_
    | cons c rest =>
        have other : c ≠ slash := fun same => letters (same ▸ List.mem_cons_self ..)
        exact List.dropWhile_cons_of_neg (by simpa using other)
  have whole : plainName (spaceName ++ suffix) = plainName spaceName ++ suffix := by
    unfold plainName at first ⊢
    rw [List.dropWhile_append]
    split
    · rename_i only
      rw [first, List.isEmpty_iff.mp only, List.nil_append]
    · rfl
  rw [objectName, whole, if_neg]
  rintro (empty | inside)
  · exact some_ (List.append_eq_nil_iff.mp empty).2
  · exact (List.mem_append.mp inside).elim plain letters

theorem plain_of_object (name plain : Bytes) (leads : objectName name = some plain) : plainName name = plain := by
  unfold objectName at leads
  split at leads
  · cases leads
  · exact Option.some.inj leads

structure PipesLead (names : PipeNames) (plain : Bytes) (way : PipeWay) : Prop where
  name : objectName names.name = some (plain ++ way.suffix)
  rsemName : objectName names.rsemName = some (plain ++ way.suffix ++ rsemSuffix)
  wsemName : objectName names.wsemName = some (plain ++ way.suffix ++ wsemSuffix)

theorem pipe_names_lead (spaceName : Bytes) (way : PipeWay) (names : PipeNames) (named : pipeNames spaceName way = .ok names)
    (plain : slash ∉ plainName spaceName) : PipesLead names (plainName spaceName) way := by
  obtain ⟨-, rfl⟩ := (pipe_names_iff spaceName way names).mp named
  refine ⟨object_name spaceName way.suffix plain (by cases way <;> decide) (by cases way <;> decide), ?_, ?_⟩
  · dsimp only
    rw [List.append_assoc, List.append_assoc]
    exact object_name spaceName (way.suffix ++ rsemSuffix) plain (by cases way <;> decide) (by cases way <;> decide)
  · dsimp only
    rw [List.append_assoc, List.append_assoc]
    exact object_name spaceName (way.suffix ++ wsemSuffix) plain (by cases way <;> decide) (by cases way <;> decide)

theorem represents_read (objects : SharedObjects) (pipes : SpacePipes) (represents : Represents objects pipes) (plain : Bytes)
    (way : PipeWay) (names : PipeNames) (leads : PipesLead names plain way) : objects.pipe names = pipes plain way := by
  unfold SharedObjects.pipe
  simp only [leads.name, leads.rsemName, leads.wsemName, Option.bind_eq_bind, Option.bind_some, represents.rsem, represents.wsem,
    represents.segment]
  cases pipes plain way <;> rfl

theorem represents_put (objects : SharedObjects) (pipes : SpacePipes) (represents : Represents objects pipes) (plain : Bytes)
    (way : PipeWay) (names : PipeNames) (leads : PipesLead names plain way) (shared : SharedPipe) :
    Represents (objects.put names shared) (pipes.set plain way shared) := by
  have segment := plain_of_object _ _ leads.name
  have rsem := plain_of_object _ _ leads.rsemName
  have wsem := plain_of_object _ _ leads.wsemName
  constructor
  · intro other direction
    simp only [SharedObjects.put, SpacePipes.set, rsem, wsem]
    by_cases here : other = plain ∧ direction = way
    · obtain ⟨rfl, rfl⟩ := here
      rw [Function.update_self, if_pos ⟨rfl, rfl⟩]
      rfl
    · rw [Function.update_of_ne fun same => here (semaphore_name_injective _ _ _ _ _ same),
        Function.update_of_ne (semaphore_names_apart _ _), if_neg here]
      exact represents.rsem other direction
  · intro other direction
    simp only [SharedObjects.put, SpacePipes.set, rsem, wsem]
    rw [Function.update_of_ne (semaphore_names_apart _ _).symm]
    by_cases here : other = plain ∧ direction = way
    · obtain ⟨rfl, rfl⟩ := here
      rw [Function.update_self, if_pos ⟨rfl, rfl⟩]
      rfl
    · rw [Function.update_of_ne fun same => here (semaphore_name_injective _ _ _ _ _ same), if_neg here]
      exact represents.wsem other direction
  · intro other direction
    simp only [SharedObjects.put, SpacePipes.set, segment]
    by_cases here : other = plain ∧ direction = way
    · obtain ⟨rfl, rfl⟩ := here
      rw [Function.update_self, if_pos ⟨rfl, rfl⟩]
      rfl
    · rw [Function.update_of_ne fun same => here (segment_name_injective _ _ _ _ same), if_neg here]
      exact represents.segment other direction

theorem represents_attach (objects : SharedObjects) (pipes : SpacePipes) (represents : Represents objects pipes) (plain : Bytes)
    (way : PipeWay) (names : PipeNames) (leads : PipesLead names plain way) :
    ∃ next, attachSharedMemory objects Grants.all names = (next, 0) ∧ Represents next (pipes.attach plain way) := by
  refine ⟨_, ?_, represents_put objects pipes represents plain way names leads ((pipes plain way).getD SharedPipe.start)⟩
  simp only [attachSharedMemory, SharedObjects.semOpen, SharedObjects.shmOpen, SharedObjects.put, Grants.all, leads.name, leads.rsemName,
    leads.wsemName, plain_of_object _ _ leads.name, plain_of_object _ _ leads.rsemName, plain_of_object _ _ leads.wsemName, if_true,
    and_self, Function.update_of_ne (semaphore_names_apart _ _), represents.rsem, represents.wsem, represents.segment]
  cases pipes plain way <;> rfl

theorem unlinked_semaphore (objects : SharedObjects) (name plain : Bytes) (leads : objectName name = some plain) :
    (objects.semUnlink name).semaphores plain = none := by
  simp only [SharedObjects.semUnlink, leads, Function.update_self]

theorem unlinked_stays (objects : SharedObjects) (name plain : Bytes) (gone : objects.semaphores plain = none) :
    (objects.semUnlink name).semaphores plain = none := by
  unfold SharedObjects.semUnlink
  split
  · exact gone
  · rename_i other _
    dsimp only
    by_cases same : plain = other
    · rw [same, Function.update_self]
    · rw [Function.update_of_ne same]
      exact gone

theorem shm_unlink_semaphores (objects : SharedObjects) (name : Bytes) : (objects.shmUnlink name).semaphores = objects.semaphores := by
  unfold SharedObjects.shmUnlink
  split <;> rfl

theorem all_unlinked (objects : SharedObjects) (names : PipeNames) (plain : Bytes) (leads : objectName names.wsemName = some plain) :
    (objects.unlinkAll names).semaphores plain = none := by
  rw [SharedObjects.unlinkAll, shm_unlink_semaphores]
  exact unlinked_stays _ _ _ (unlinked_semaphore objects _ _ leads)

theorem sem_open_granted (objects next : SharedObjects) (granted : Bool) (name : Bytes) (value : Nat)
    (opened : objects.semOpen granted name value = some next) : granted = true := by
  unfold SharedObjects.semOpen at opened
  split at opened
  · cases opened
  · split at opened
    · assumption
    · cases opened

theorem shm_open_granted (objects next : SharedObjects) (granted : Bool) (name : Bytes)
    (opened : objects.shmOpen granted name = some next) : granted = true := by
  unfold SharedObjects.shmOpen at opened
  split at opened
  · cases opened
  · split at opened
    · assumption
    · cases opened

-- A refusal takes the names of the pipe from everybody: who attaches next makes another one.
theorem refused_unlinks (objects : SharedObjects) (grants : Grants) (plain : Bytes) (way : PipeWay) (names : PipeNames)
    (leads : PipesLead names plain way) (refused : grants ≠ Grants.all) :
    (attachSharedMemory objects grants names).2 = 1 ∧ (attachSharedMemory objects grants names).1.pipe names = none := by
  have gone : ∀ next : SharedObjects, next.semaphores (plain ++ way.suffix ++ wsemSuffix) = none → next.pipe names = none := by
    intro next none_
    simp only [SharedObjects.pipe, leads.name, leads.rsemName, leads.wsemName, none_, Option.bind_eq_bind, Option.bind_some,
      Option.bind_none, Option.bind_fun_none]
  unfold attachSharedMemory
  split
  · exact ⟨rfl, gone _ (unlinked_semaphore _ _ _ leads.wsemName)⟩
  · rename_i first wSem
    split
    · exact ⟨rfl, gone _ (unlinked_stays _ _ _ (unlinked_semaphore _ _ _ leads.wsemName))⟩
    · rename_i second rSem
      split
      · exact ⟨rfl, gone _ (all_unlinked _ _ _ leads.wsemName)⟩
      · rename_i third shm
        split
        · rename_i both
          refine absurd ?_ refused
          obtain ⟨_, _, _, _, _⟩ := grants
          cases sem_open_granted _ _ _ _ _ wSem
          cases sem_open_granted _ _ _ _ _ rSem
          cases shm_open_granted _ _ _ _ shm
          obtain ⟨truncate, map⟩ := both
          cases truncate
          cases map
          rfl
        · exact ⟨rfl, gone _ (all_unlinked _ _ _ leads.wsemName)⟩

theorem attach_both (pipes : SpacePipes) (plain : Bytes) (first second : PipeWay) (apart : first ≠ second) :
    (pipes.attach plain first).attach plain second = pipes.attachBoth plain := by
  funext other direction
  simp only [SpacePipes.attach, SpacePipes.set, SpacePipes.attachBoth]
  by_cases here : other = plain
  · subst here
    cases first <;> cases second <;> cases direction <;> first | exact absurd rfl apart | simp
  · simp [here]

def AttachMove.Short : AttachMove → Prop
  | .daemon spaces => ∀ config ∈ spaces, config.space.name.length < 40
  | .client _ spaceName _ => spaceName.length < 40
  | .uses spaceName _ _ => spaceName.length < 40

-- The system refuses nothing, and no name has a slash but in front.
def AttachMove.Granted : AttachMove → Prop
  | .daemon spaces => ∀ config ∈ spaces, config.grants = (fun _ => Grants.all) ∧ slash ∉ plainName config.space.name
  | .client grants spaceName _ => grants = (fun _ => Grants.all) ∧ slash ∉ plainName spaceName
  | .uses spaceName _ _ => slash ∉ plainName spaceName

theorem short_named (spaceName : Bytes) (way : PipeWay) (short : spaceName.length < 40) :
    ∃ names, pipeNames spaceName way = .ok names := ⟨_, (pipe_names_iff spaceName way _).mpr ⟨short, rfl⟩⟩

theorem long_unnamed (spaceName : Bytes) (way : PipeWay) (long : ¬ spaceName.length < 40) :
    ∃ stop, pipeNames spaceName way = .error stop := by
  cases named : pipeNames spaceName way with
  | error stop => exact ⟨stop, rfl⟩
  | ok names => exact absurd ((pipe_names_iff spaceName way names).mp named).1 long

theorem pair_attaches (objects : SharedObjects) (pipes : SpacePipes) (represents : Represents objects pipes) (spaceName : Bytes)
    (plain : slash ∉ plainName spaceName) (first second : PipeWay) (apart : first ≠ second) (one two : PipeNames)
    (namedOne : pipeNames spaceName first = .ok one) (namedTwo : pipeNames spaceName second = .ok two) :
    ∃ between after, attachSharedMemory objects Grants.all one = (between, 0) ∧ attachSharedMemory between Grants.all two = (after, 0) ∧
      Represents after (pipes.attachBoth (plainName spaceName)) := by
  obtain ⟨between, made, kept⟩ := represents_attach objects pipes represents _ first one (pipe_names_lead _ _ one namedOne plain)
  obtain ⟨after, opened, final⟩ := represents_attach between _ kept _ second two (pipe_names_lead _ _ two namedTwo plain)
  rw [attach_both pipes _ first second apart] at final
  exact ⟨between, after, made, opened, final⟩

theorem tsd_attaches (spaces : List GrantedSpace) (objects : SharedObjects) (pipes : SpacePipes) (represents : Represents objects pipes)
    (granted : ∀ config ∈ spaces, config.grants = (fun _ => Grants.all) ∧ slash ∉ plainName config.space.name) :
    ((∀ config ∈ spaces, config.space.name.length < 40) → ∃ next, tsdAttach objects spaces = .ok (next, 0) ∧
      Represents next (spaces.foldl (fun pipes config => pipes.attachBoth (plainName config.space.name)) pipes)) ∧
    ((¬ ∀ config ∈ spaces, config.space.name.length < 40) → ∃ stop, tsdAttach objects spaces = .error stop) := by
  induction spaces generalizing objects pipes with
  | nil => exact ⟨fun _ => ⟨objects, rfl, represents⟩, fun long => absurd (fun config member => by cases member) long⟩
  | cons config later ih =>
      obtain ⟨all, plain⟩ := granted config (List.mem_cons_self ..)
      by_cases first : config.space.name.length < 40
      · obtain ⟨pull, namedPull⟩ := short_named config.space.name .pull first
        obtain ⟨push, namedPush⟩ := short_named config.space.name .push first
        obtain ⟨between, after, made, opened, kept⟩ := pair_attaches objects pipes represents config.space.name plain .pull .push
          (by decide) pull push namedPull namedPush
        have goes : tsdAttach objects (config :: later) = tsdAttach after later := by
          simp only [tsdAttach, namedPull, namedPush, createSharedMemory, openSharedMemory, all, made, opened, bind, Except.bind, ne_eq,
            not_true_eq_false, if_false]
        have rest := ih after _ kept fun other member => granted other (List.mem_cons_of_mem _ member)
        rw [goes, List.forall_mem_cons, List.foldl_cons]
        exact ⟨fun short => rest.1 short.2, fun long => rest.2 fun short => long ⟨first, short⟩⟩
      · refine ⟨fun short => absurd (short config (List.mem_cons_self ..)) first, fun _ => ?_⟩
        obtain ⟨stop, unnamed⟩ := long_unnamed config.space.name .pull first
        exact ⟨stop, by simp only [tsdAttach, unnamed, bind, Except.bind]⟩

-- One step of both: it goes through in both or in neither, unless a name is too long.
theorem step_represents (objects : SharedObjects) (pipes : SpacePipes) (represents : Represents objects pipes) (move : AttachMove)
    (granted : move.Granted) :
    (objects.step move = none ∧ (pipes.step move = none ∨ ¬ move.Short)) ∨
      ∃ next after, objects.step move = some next ∧ pipes.step move = some after ∧ Represents next after := by
  cases move with
  | daemon spaces =>
      obtain ⟨goes, stops⟩ := tsd_attaches spaces objects pipes represents granted
      by_cases short : ∀ config ∈ spaces, config.space.name.length < 40
      · obtain ⟨next, done, after⟩ := goes short
        exact Or.inr ⟨next, _, by simp only [SharedObjects.step, done]; rfl, rfl, after⟩
      · obtain ⟨stop, stopped⟩ := stops short
        exact Or.inl ⟨by simp only [SharedObjects.step, stopped]; rfl, Or.inr short⟩
  | client grants spaceName mode =>
      obtain ⟨all, plain⟩ := granted
      by_cases short : spaceName.length < 40
      · obtain ⟨push, namedPush⟩ := short_named spaceName .push short
        obtain ⟨pull, namedPull⟩ := short_named spaceName .pull short
        right
        simp only [SharedObjects.step, SpacePipes.step, tsAttach, namedPush, namedPull, bind, Except.bind, pure, Except.pure]
        by_cases master : mode = tsModeMaster
        · obtain ⟨between, after, made, opened, kept⟩ := pair_attaches objects pipes represents spaceName plain .push .pull
            (by decide) push pull namedPush namedPull
          rw [if_pos master, if_pos master]
          simp only [createSharedMemory, openSharedMemory, all, made, opened, ne_eq, not_true_eq_false, if_false]
          exact ⟨_, _, rfl, rfl, kept⟩
        · rw [if_neg master, if_neg master]
          exact ⟨_, _, rfl, rfl, represents⟩
      · obtain ⟨stop, unnamed⟩ := long_unnamed spaceName .push short
        refine Or.inl ⟨?_, Or.inr short⟩
        simp only [SharedObjects.step, tsAttach, unnamed, bind, Except.bind]
        rfl
  | uses spaceName way change =>
      by_cases short : spaceName.length < 40
      · obtain ⟨names, named⟩ := short_named spaceName way short
        have leads := pipe_names_lead spaceName way names named granted
        simp only [SharedObjects.step, SpacePipes.step, named, represents_read objects pipes represents _ way names leads]
        cases pipes (plainName spaceName) way with
        | none => exact Or.inl ⟨rfl, Or.inl rfl⟩
        | some shared => exact Or.inr ⟨_, _, rfl, rfl, represents_put objects pipes represents _ way names leads (change shared)⟩
      · obtain ⟨stop, unnamed⟩ := long_unnamed spaceName way short
        exact Or.inl ⟨by simp only [SharedObjects.step, unnamed], Or.inr short⟩

theorem run_represents (moves : List AttachMove) (objects : SharedObjects) (pipes : SpacePipes) (represents : Represents objects pipes)
    (granted : ∀ move ∈ moves, move.Granted) :
    (∃ last after, Runs.run SharedObjects.step objects moves = some last ∧ Runs.run SpacePipes.step pipes moves = some after ∧
        Represents last after) ∨
      (Runs.run SharedObjects.step objects moves = none ∧
        (Runs.run SpacePipes.step pipes moves = none ∨ ∃ move ∈ moves, ¬ move.Short)) := by
  induction moves generalizing objects pipes with
  | nil => exact Or.inl ⟨objects, pipes, rfl, rfl, represents⟩
  | cons move rest ih =>
      have first := granted move (List.mem_cons_self ..)
      rcases step_represents objects pipes represents move first with ⟨stops, ends | long⟩ | ⟨next, after, stepped, went, later⟩
      · exact Or.inr ⟨by simp only [Runs.run, stops], Or.inl (by simp only [Runs.run, ends])⟩
      · exact Or.inr ⟨by simp only [Runs.run, stops], Or.inr ⟨move, List.mem_cons_self .., long⟩⟩
      · simp only [Runs.run, stepped, went]
        rcases ih next after later (fun other member => granted other (List.mem_cons_of_mem _ member)) with all |
          ⟨stops, ends | ⟨other, member, long⟩⟩
        · exact Or.inl all
        · exact Or.inr ⟨stops, Or.inl ends⟩
        · exact Or.inr ⟨stops, Or.inr ⟨other, List.mem_cons_of_mem _ member, long⟩⟩

-- Where the system refuses nothing, whoever starts, opens and uses what in whatever order: the semaphores and segments are the pipes of the
-- plain names, each shared by those that are at its two ends and by nobody else, and opened twice as it was left. Only a name of 40 bytes or
-- more is written past its buffer. A refusal unlinks the pipe that others have.
theorem pipes_never_mix (moves : List AttachMove) (granted : ∀ move ∈ moves, move.Granted) :
    ((∃ last pipes, Runs.run SharedObjects.step noObjects moves = some last ∧
        Runs.run SpacePipes.step (fun _ _ => none) moves = some pipes ∧
        ∀ spaceName way names, pipeNames spaceName way = .ok names → slash ∉ plainName spaceName →
          last.pipe names = pipes (plainName spaceName) way) ∨
      (Runs.run SharedObjects.step noObjects moves = none ∧
        (Runs.run SpacePipes.step (fun _ _ => none) moves = none ∨ ∃ move ∈ moves, ¬ move.Short))) ∧
    ∀ objects grants spaceName way names, pipeNames spaceName way = .ok names → slash ∉ plainName spaceName → grants ≠ Grants.all →
      (attachSharedMemory objects grants names).2 = 1 ∧ (attachSharedMemory objects grants names).1.pipe names = none := by
  refine ⟨?_, fun objects grants spaceName way names named plain refused =>
    refused_unlinks objects grants _ way names (pipe_names_lead spaceName way names named plain) refused⟩
  have nothing : Represents noObjects fun _ _ => none := ⟨fun _ _ => rfl, fun _ _ => rfl, fun _ _ => rfl⟩
  rcases run_represents moves noObjects _ nothing granted with ⟨last, pipes, ran, went, represents⟩ | stops
  · exact Or.inl ⟨last, pipes, ran, went, fun spaceName way names named plain =>
      represents_read last pipes represents _ way names (pipe_names_lead spaceName way names named plain)⟩
  · exact Or.inr stops

-- A daemon starts with the space s, somebody writes to its push pipe, and a client opens /s.
def sampleAttaching : List AttachMove :=
  [.daemon [⟨{ name := [115], directEndpoint := List.replicate 256 0, tsMode := .master, tsdMode := .token }, fun _ => Grants.all⟩],
    .uses [115] .push fun shared => { shared with rSem := 1, wSem := 0 },
    .client (fun _ => Grants.all) [slash, 115] tsModeMaster]

theorem sample_attaching_granted : ∀ move ∈ sampleAttaching, move.Granted := by
  intro move member
  simp only [sampleAttaching, List.mem_cons, List.not_mem_nil, or_false] at member
  rcases member with same | same | same
  all_goals subst same
  · intro config only
    rw [List.mem_singleton.mp only]
    exact ⟨rfl, by decide⟩
  · exact show slash ∉ plainName [115] by decide
  · exact ⟨rfl, by decide⟩

theorem pipes_never_mix_shared : ∃ last names shared, Runs.run SharedObjects.step noObjects sampleAttaching = some last ∧
    pipeNames [slash, 115] .push = .ok names ∧ last.pipe names = some shared ∧ shared.rSem = 1 ∧ shared.wSem = 0 := by
  obtain ⟨next, went, shared, there, rSem, wSem⟩ : ∃ next, Runs.run SpacePipes.step (fun _ _ => none) sampleAttaching = some next ∧
      ∃ shared, next [115] .push = some shared ∧ shared.rSem = 1 ∧ shared.wSem = 0 := ⟨_, rfl, _, rfl, rfl, rfl⟩
  obtain ⟨names, named⟩ := short_named [slash, 115] .push (by decide)
  rcases (pipes_never_mix sampleAttaching sample_attaching_granted).1 with ⟨last, pipes, ran, same, reads⟩ |
    ⟨-, stops | ⟨move, member, long⟩⟩
  · cases went.symm.trans same
    exact ⟨last, names, shared, ran, named, (reads _ _ names named (by decide)).trans there, rSem, wSem⟩
  · cases went.symm.trans stops
  · refine absurd ?_ long
    simp only [sampleAttaching, List.mem_cons, List.not_mem_nil, or_false] at member
    rcases member with same | same | same
    all_goals subst same
    · intro config only
      rw [List.mem_singleton.mp only]
      exact show 1 < 40 by decide
    · exact show 1 < 40 by decide
    · exact show 2 < 40 by decide

end Synergy
