import Mathlib.Logic.Function.Basic
import SideWire.Base.TaskPool
import SideWire.Base.TransitionSystem
import SideWire.PairingStore

/-!
The device map of the server: `register_device`, and the close, the heartbeat and the monitor
that it spawns, in any order and on any number of connections.
-/

namespace SideWire.DeviceRegistry

open SideWire.TransitionSystem
open SideWire.TaskPool
open SideWire.PairingStore (DeviceId)

/-- A `DeviceSession`, with its `transport` as the pointer that `same_connection` compares. -/
structure Session where
  id : DeviceId
  transport : Nat
  heartbeat : Bool
  deriving DecidableEq

namespace Session

def sameConnection (session other : Session) : Bool := session.transport == other.transport

end Session

/-- The tasks around the map: `register_device` once it has inserted its session, up to
`finishing`, and what it spawns. -/
inductive Task
  | registering (session : Session) (previous : Option Session)
  | spawning (session : Session)
  | finishing (session : Session)
  | closing (existing : Session)
  | beating (session : Session)
  | waiting (monitor : Session)
  | removing (monitor : Session)
  | done
  deriving DecidableEq

/-- The map, which transports are closed, and every session there has been. -/
structure State where
  devices : DeviceId → Option Session
  closed : Nat → Bool
  registered : List Session
  tasks : List Task

def State.initial (closed : Nat → Bool) : State where
  devices := fun _ => none
  closed := closed
  registered := []
  tasks := []

/-- `signal_closed`. -/
def State.close (s : State) (transport : Nat) : State :=
  { s with closed := Function.update s.closed transport true }

/-- The map after `remove_device_if_same`. -/
def State.removeDeviceIfSame (s : State) (session : Session) : State :=
  if (s.devices session.id).any (·.sameConnection session) then
    { s with devices := Function.update s.devices session.id none }
  else s

inductive Action
  | register (session : Session)
  | monitor (session : Session)
  | other
  deriving DecidableEq

inductive Step : State → Action → State → Prop
  -- the peer hangs up, a read or a write fails, …
  | disconnect {s : State} {transport : Nat} : Step s .other (s.close transport)
  -- `register_device`; a transport is made for one session
  | register {s : State} {session : Session}
      (hown : ∀ other ∈ s.registered, other.transport = session.transport → other = session) :
      Step s (.register session) { s with
        devices := Function.update s.devices session.id (some session),
        registered := session :: s.registered,
        tasks := s.tasks ++ [.registering session (s.devices session.id)] }
  | replace {s : State} {session existing : Session} {tasks : List Task}
      (hother : existing.sameConnection session = false)
      (hopen : s.closed existing.transport = false)
      (htask : Replaces (.registering session (some existing)) (.spawning session)
        s.tasks tasks) :
      Step s .other { s with tasks := tasks ++ [.closing existing] }
  | keep {s : State} {session : Session} {previous : Option Session} {tasks : List Task}
      (hkeep : ∀ existing, previous = some existing →
        existing.sameConnection session = true ∨ s.closed existing.transport = true)
      (htask : Replaces (.registering session previous) (.spawning session) s.tasks tasks) :
      Step s .other { s with tasks := tasks }
  | spawnHeartbeat {s : State} {session : Session} {tasks : List Task}
      (hheartbeat : session.heartbeat = true)
      (htask : Replaces (.spawning session) (.finishing session) s.tasks tasks) :
      Step s .other { s with tasks := tasks ++ [.beating session] }
  | noHeartbeat {s : State} {session : Session} {tasks : List Task}
      (hheartbeat : session.heartbeat = false)
      (htask : Replaces (.spawning session) (.finishing session) s.tasks tasks) :
      Step s .other { s with tasks := tasks }
  | spawnMonitor {s : State} {session : Session} {tasks : List Task}
      (htask : Replaces (.finishing session) (.waiting session) s.tasks tasks) :
      Step s .other { s with tasks := tasks }
  -- the close of a session that has been replaced
  | close {s : State} {existing : Session} {tasks : List Task}
      (htask : Replaces (.closing existing) .done s.tasks tasks) :
      Step s .other { s.close existing.transport with tasks := tasks }
  -- `device_heartbeat`
  | heartbeatCloses {s : State} {session : Session} {tasks : List Task}
      (htask : Replaces (.beating session) .done s.tasks tasks) :
      Step s .other { s.close session.transport with tasks := tasks }
  | heartbeatEnds {s : State} {session : Session} {tasks : List Task}
      (hclosed : s.closed session.transport = true)
      (htask : Replaces (.beating session) .done s.tasks tasks) :
      Step s .other { s with tasks := tasks }
  -- the monitor, after `wait_closed` with the map to itself
  | wake {s : State} {monitor : Session} {tasks : List Task}
      (hclosed : s.closed monitor.transport = true)
      (htask : Replaces (.waiting monitor) (.removing monitor) s.tasks tasks) :
      Step s .other { s with tasks := tasks }
  | remove {s : State} {monitor : Session} {tasks : List Task}
      (htask : Replaces (.removing monitor) .done s.tasks tasks) :
      Step s (.monitor monitor) { s.removeDeviceIfSame monitor with tasks := tasks }

def system : System State Action where
  init := fun s => ∃ closed, s = .initial closed
  step := Step

namespace Task

/-- The session whose entry the task sees to: its monitor, now or once it is spawned. -/
def watched : Task → Option Session
  | .registering session _ | .spawning session | .finishing session | .waiting session
  | .removing session => some session
  | _ => none

/-- The session that has been replaced and that the task may still have to close. -/
def displaced : Task → Option Session
  | .registering session (some existing) => if existing = session then none else some existing
  | .closing existing => some existing
  | _ => none

/-- A call of `register_device` that is under way, the close of a session that has been
replaced, or a monitor whose transport is closed. -/
def pending (closed : Nat → Bool) : Task → Bool
  | .registering _ _ | .spawning _ | .finishing _ | .closing _ | .removing _ => true
  | .waiting monitor => closed monitor.transport
  | .beating _ | .done => false

end Task

def State.Settled (s : State) : Prop := ∀ task ∈ s.tasks, task.pending s.closed = false

/-- What a task may rely on. -/
def Task.Proper (registered : List Session) (closed : Nat → Bool) : Task → Prop
  | .registering session previous =>
      session ∈ registered ∧ ∀ existing, previous = some existing → existing ∈ registered
  | .spawning session | .finishing session | .waiting session => session ∈ registered
  | .removing session => session ∈ registered ∧ closed session.transport = true
  | _ => True

theorem Task.Proper.mono {registered registered' : List Session} {closed closed' : Nat → Bool}
    (hregistered : ∀ session ∈ registered, session ∈ registered')
    (hclosed : ∀ transport, closed transport = true → closed' transport = true) {task : Task}
    (h : task.Proper registered closed) : task.Proper registered' closed' := by
  cases task with
  | registering session previous =>
      exact ⟨hregistered _ h.1, fun existing hsome => hregistered _ (h.2 existing hsome)⟩
  | spawning | finishing | waiting => exact hregistered _ h
  | removing => exact ⟨hregistered _ h.1, hclosed _ h.2⟩
  | closing | beating | done => trivial

namespace State

variable {s : State}

theorem closed_close (transport : Nat) : (s.close transport).closed transport = true :=
  Function.update_self ..

theorem closed_close_of_closed {transport other : Nat} (h : s.closed other = true) :
    (s.close transport).closed other = true := by
  rcases eq_or_ne other transport with rfl | hne
  · exact closed_close other
  · exact (Function.update_of_ne hne _ _).trans h

@[simp] theorem closed_removeDeviceIfSame (session : Session) :
    (s.removeDeviceIfSame session).closed = s.closed := by
  unfold removeDeviceIfSame
  split_ifs <;> rfl

@[simp] theorem registered_removeDeviceIfSame (session : Session) :
    (s.removeDeviceIfSame session).registered = s.registered := by
  unfold removeDeviceIfSame
  split_ifs <;> rfl

theorem devices_of_removeDeviceIfSame {session entry : Session} {id : DeviceId}
    (h : (s.removeDeviceIfSame session).devices id = some entry) :
    s.devices id = some entry ∧ (id = session.id → entry.sameConnection session = false) := by
  unfold removeDeviceIfSame at h
  split_ifs at h with hsame
  · rcases eq_or_ne id session.id with rfl | hne
    · simp at h
    · simp only [Function.update_of_ne hne] at h
      exact ⟨h, fun heq => absurd heq hne⟩
  · refine ⟨h, ?_⟩
    rintro rfl
    simpa [h] using hsame

theorem devices_removeDeviceIfSame {session entry : Session} {id : DeviceId}
    (h : s.devices id = some entry) :
    (s.removeDeviceIfSame session).devices id = some entry ∨
      entry.transport = session.transport := by
  unfold removeDeviceIfSame
  split_ifs with hsame
  · rcases eq_or_ne id session.id with rfl | hne
    · right
      simpa [h, Session.sameConnection] using hsame
    · left
      exact (Function.update_of_ne hne _ _).trans h
  · exact .inl h

end State

/-- A session is closed, in the map, or known to a task that may still have to close it. -/
def State.Accounted (s : State) (session : Session) : Prop :=
  s.closed session.transport = true ∨ s.devices session.id = some session ∨
    ∃ task ∈ s.tasks, task.displaced = some session

/-- Each entry has its own key and a monitor to come, and no session that is registered is
forgotten. -/
structure Inv (s : State) : Prop where
  own : ∀ a ∈ s.registered, ∀ b ∈ s.registered, a.transport = b.transport → a = b
  keyed : ∀ id session, s.devices id = some session → session.id = id ∧ session ∈ s.registered
  proper : ∀ task ∈ s.tasks, task.Proper s.registered s.closed
  watched : ∀ id session, s.devices id = some session →
    ∃ task ∈ s.tasks, task.watched = some session
  accounted : ∀ session ∈ s.registered, s.Accounted session

theorem Inv.initial (closed : Nat → Bool) : Inv (.initial closed) where
  own := List.forall_mem_nil _
  keyed _ _ h := nomatch h
  proper := List.forall_mem_nil _
  watched _ _ h := nomatch h
  accounted := List.forall_mem_nil _

section Step

variable {s t : State} {action : Action}

theorem Inv.own_step (h : Inv s) (hstep : Step s action t) :
    ∀ a ∈ t.registered, ∀ b ∈ t.registered, a.transport = b.transport → a = b := by
  have hown := h.own
  cases hstep with
  | register hnew =>
      simp only [List.forall_mem_cons]
      refine ⟨⟨fun _ => trivial, fun b hb heq => (hnew b hb heq.symm).symm⟩, ?_⟩
      exact fun a ha => ⟨fun heq => hnew a ha heq, hown a ha⟩
  | remove =>
      simp only [State.registered_removeDeviceIfSame]
      exact hown
  | _ => exact hown

theorem Inv.keyed_step (h : Inv s) (hstep : Step s action t) :
    ∀ id session, t.devices id = some session → session.id = id ∧ session ∈ t.registered := by
  have hkeyed := h.keyed
  cases hstep with
  | @register session _ =>
      intro id entry hentry
      rcases eq_or_ne id session.id with rfl | hne
      · obtain rfl : session = entry := by simpa using hentry
        exact ⟨rfl, List.mem_cons_self⟩
      · simp only [Function.update_of_ne hne] at hentry
        obtain ⟨hid, hmem⟩ := hkeyed id entry hentry
        exact ⟨hid, List.mem_cons_of_mem _ hmem⟩
  | remove =>
      intro id entry hentry
      simp only [State.registered_removeDeviceIfSame]
      exact hkeyed id entry (State.devices_of_removeDeviceIfSame hentry).1
  | _ => exact hkeyed

theorem Step.mono (hstep : Step s action t) :
    (∀ session ∈ s.registered, session ∈ t.registered) ∧
      ∀ transport, s.closed transport = true → t.closed transport = true := by
  cases hstep with
  | register => exact ⟨fun _ => List.mem_cons_of_mem _, fun _ => id⟩
  | disconnect | close _ | heartbeatCloses _ =>
      exact ⟨fun _ => id, fun _ => State.closed_close_of_closed⟩
  | remove =>
      simp only [State.registered_removeDeviceIfSame, State.closed_removeDeviceIfSame]
      exact ⟨fun _ => id, fun _ => id⟩
  | _ => exact ⟨fun _ => id, fun _ => id⟩

theorem Inv.proper_step (h : Inv s) (hstep : Step s action t) :
    ∀ task ∈ t.tasks, task.Proper t.registered t.closed := by
  obtain ⟨hregistered, hclosed⟩ := hstep.mono
  have hproper : ∀ task ∈ s.tasks, task.Proper t.registered t.closed :=
    fun task hmem => (h.proper task hmem).mono hregistered hclosed
  cases hstep with
  | disconnect => exact hproper
  | @register session _ =>
      simp only [List.forall_mem_append, List.forall_mem_singleton]
      refine ⟨hproper, List.mem_cons_self, ?_⟩
      intro existing hprevious
      exact List.mem_cons_of_mem _ (h.keyed _ _ hprevious).2
  | replace _ _ htask =>
      simp only [List.forall_mem_append, List.forall_mem_singleton]
      exact ⟨htask.forall_mem hproper (hproper _ htask.mem).1, trivial⟩
  | keep _ htask => exact htask.forall_mem hproper (hproper _ htask.mem).1
  | spawnHeartbeat _ htask =>
      have hmem := hproper _ htask.mem
      simp only [List.forall_mem_append, List.forall_mem_singleton]
      exact ⟨htask.forall_mem hproper hmem, trivial⟩
  | noHeartbeat _ htask | spawnMonitor htask =>
      have hmem := hproper _ htask.mem
      exact htask.forall_mem hproper hmem
  | wake hawake htask => exact htask.forall_mem hproper ⟨hproper _ htask.mem, hawake⟩
  | close htask | heartbeatCloses htask | heartbeatEnds _ htask | remove htask =>
      exact htask.forall_mem hproper trivial

theorem Inv.watched_step (h : Inv s) (hstep : Step s action t) :
    ∀ id session, t.devices id = some session →
      ∃ task ∈ t.tasks, task.watched = some session := by
  have hwatched := h.watched
  cases hstep with
  | disconnect => exact hwatched
  | @register session _ =>
      intro id entry hentry
      rcases eq_or_ne id session.id with rfl | hne
      · obtain rfl : session = entry := by simpa using hentry
        exact ⟨_, List.mem_append_right _ (List.mem_singleton_self _), rfl⟩
      · simp only [Function.update_of_ne hne] at hentry
        exact exists_mem_append (hwatched id entry hentry)
  | replace _ _ htask | spawnHeartbeat _ htask =>
      intro id entry hentry
      exact exists_mem_append (htask.exists_mem (hwatched id entry hentry) fun hwatch => hwatch)
  | keep _ htask | noHeartbeat _ htask | spawnMonitor htask | wake _ htask =>
      intro id entry hentry
      exact htask.exists_mem (hwatched id entry hentry) fun hwatch => hwatch
  | close htask | heartbeatCloses htask | heartbeatEnds _ htask =>
      intro id entry hentry
      exact htask.exists_mem (hwatched id entry hentry) nofun
  | @remove monitor _ htask =>
      intro id entry hentry
      obtain ⟨hbefore, hother⟩ := State.devices_of_removeDeviceIfSame hentry
      refine htask.exists_mem (hwatched id entry hbefore) ?_
      -- the monitor that is done has watched another session
      intro hwatch
      obtain rfl : monitor = entry := Option.some.inj hwatch
      have hsame := hother (h.keyed id monitor hbefore).1.symm
      simp [Session.sameConnection] at hsame

theorem State.Accounted.replace {session : Session} {task task' : Task} {tasks : List Task}
    (h : s.Accounted session) (htask : Replaces task task' s.tasks tasks)
    (hclosed : ∀ transport, s.closed transport = true → t.closed transport = true)
    (hdevices : t.devices = s.devices) (htasks : ∀ task ∈ tasks, task ∈ t.tasks)
    (hmoved : task.displaced = some session → t.Accounted session) : t.Accounted session := by
  rcases h with hshut | hentry | ⟨other, hmem, hother⟩
  · exact .inl (hclosed _ hshut)
  · exact .inr (.inl (hdevices ▸ hentry))
  · rcases htask.eq_or_mem hmem with rfl | hmem
    · exact hmoved hother
    · exact .inr (.inr ⟨other, htasks other hmem, hother⟩)

theorem Inv.accounted_register (h : Inv s) (session : Session) :
    ∀ other ∈ session :: s.registered, State.Accounted { s with
      devices := Function.update s.devices session.id (some session),
      registered := session :: s.registered,
      tasks := s.tasks ++ [.registering session (s.devices session.id)] } other := by
  refine List.forall_mem_cons.mpr ⟨.inr (.inl (Function.update_self ..)), ?_⟩
  intro other hmem
  rcases h.accounted other hmem with hshut | hentry | htask
  · exact .inl hshut
  · by_cases heq : other = session
    · subst heq
      exact .inr (.inl (Function.update_self ..))
    rcases eq_or_ne other.id session.id with hid | hne
    · -- the entry that the new session takes
      rw [hid] at hentry
      refine .inr (.inr ⟨_, List.mem_append_right _ (List.mem_singleton_self _), ?_⟩)
      simp [Task.displaced, hentry, heq]
    · exact .inr (.inl ((Function.update_of_ne hne _ _).trans hentry))
  · exact .inr (.inr (exists_mem_append htask))

theorem Task.eq_of_displaced_registering {session other : Session} {previous : Option Session}
    (h : (Task.registering session previous).displaced = some other) :
    previous = some other ∧ other ≠ session := by
  cases previous with
  | none => exact nomatch h
  | some existing =>
      simp only [Task.displaced, Option.ite_none_left_eq_some, Option.some.injEq] at h
      obtain ⟨hne, rfl⟩ := h
      exact ⟨rfl, hne⟩

theorem Inv.accounted_step (h : Inv s) (hstep : Step s action t) :
    ∀ session ∈ t.registered, t.Accounted session := by
  obtain ⟨_, hclosed⟩ := hstep.mono
  have haccounted := h.accounted
  cases hstep with
  | disconnect => exact fun session hmem => (haccounted session hmem).imp_left (hclosed _)
  | @register session => exact h.accounted_register session
  | @replace session existing _ _ _ htask =>
      intro other hmem
      refine (haccounted other hmem).replace htask hclosed rfl
        (fun _ => List.mem_append_left _) ?_
      intro hmoved
      obtain ⟨hsome, _⟩ := Task.eq_of_displaced_registering hmoved
      exact .inr (.inr ⟨.closing existing, List.mem_append_right _ (List.mem_singleton_self _),
        hsome⟩)
  | @keep session previous _ hkeep htask =>
      intro other hmem
      refine (haccounted other hmem).replace htask hclosed rfl (fun _ => id) ?_
      intro hmoved
      obtain ⟨hsome, hne⟩ := Task.eq_of_displaced_registering hmoved
      rcases hkeep other hsome with hsame | hshut
      · have hsession := (h.proper _ htask.mem).1
        exact absurd (h.own other hmem session hsession (beq_iff_eq.mp hsame)) hne
      · exact .inl hshut
  | @close existing _ htask =>
      intro other hmem
      refine (haccounted other hmem).replace htask hclosed rfl (fun _ => id) ?_
      intro hmoved
      obtain rfl := Option.some.inj hmoved
      exact .inl (State.closed_close _)
  | spawnHeartbeat _ htask =>
      intro other hmem
      exact (haccounted other hmem).replace htask hclosed rfl
        (fun _ => List.mem_append_left _) nofun
  | noHeartbeat _ htask | spawnMonitor htask | heartbeatCloses htask | heartbeatEnds _ htask
  | wake _ htask =>
      intro other hmem
      exact (haccounted other hmem).replace htask hclosed rfl (fun _ => id) nofun
  | @remove monitor _ htask =>
      intro other hmem
      simp only [State.registered_removeDeviceIfSame] at hmem
      unfold State.Accounted
      simp only [State.closed_removeDeviceIfSame]
      rcases haccounted other hmem with hshut | hentry | hpending
      · exact .inl hshut
      · rcases State.devices_removeDeviceIfSame hentry with hentry | hsame
        · exact .inr (.inl hentry)
        · exact .inl (hsame ▸ (h.proper _ htask.mem).2)
      · exact .inr (.inr (htask.exists_mem hpending nofun))

theorem Inv.step (h : Inv s) (hstep : Step s action t) : Inv t where
  own := h.own_step hstep
  keyed := h.keyed_step hstep
  proper := h.proper_step hstep
  watched := h.watched_step hstep
  accounted := h.accounted_step hstep

/-- A monitor takes nothing out of the map but its own session. -/
theorem Inv.eq_of_monitor (h : Inv s) {monitor : Session} (hstep : Step s (.monitor monitor) t)
    {id : DeviceId} {session : Session} (hentry : s.devices id = some session) :
    t.devices id = some session ∨ session = monitor := by
  cases hstep with
  | remove htask =>
      refine (State.devices_removeDeviceIfSame hentry).imp_right ?_
      exact h.own session (h.keyed id session hentry).2 monitor (h.proper _ htask.mem).1

end Step

/-- Once nothing is pending, the sessions with an open transport are those in the map. -/
theorem Inv.devices_iff (h : Inv s) (hsettled : s.Settled) (session : Session) :
    s.devices session.id = some session ↔
      session ∈ s.registered ∧ s.closed session.transport = false := by
  constructor
  · intro hentry
    refine ⟨(h.keyed _ _ hentry).2, ?_⟩
    obtain ⟨task, hmem, hwatched⟩ := h.watched _ _ hentry
    have hpending := hsettled task hmem
    cases task with
    | waiting monitor =>
        obtain rfl : monitor = session := Option.some.inj hwatched
        exact hpending
    | registering | spawning | finishing | removing => exact nomatch hpending
    | closing | beating | done => exact nomatch hwatched
  · rintro ⟨hmem, hopen⟩
    rcases h.accounted session hmem with hshut | hentry | ⟨task, htask, hdisplaced⟩
    · exact nomatch hopen.symm.trans hshut
    · exact hentry
    · have hpending := hsettled task htask
      cases task with
      | registering | closing => exact nomatch hpending
      | spawning | finishing | beating | waiting | removing | done => exact nomatch hdisplaced

/-- The map of a reachable state: each entry is stored under its own key, a monitor removes no
session but its own, and when no task is pending the sessions whose transport is open are those
in the map, one at most for each device. -/
theorem registry_consistent {s : State} (h : system.Reachable s) :
    (∀ id session, s.devices id = some session → session.id = id) ∧
    (∀ monitor t, Step s (.monitor monitor) t → ∀ id session, s.devices id = some session →
      t.devices id = some session ∨ session = monitor) ∧
    (s.Settled →
      (∀ session, session ∈ s.registered ∧ s.closed session.transport = false ↔
        s.devices session.id = some session) ∧
      (∀ a ∈ s.registered, ∀ b ∈ s.registered, s.closed a.transport = false →
        s.closed b.transport = false → a.id = b.id → a = b) ∧
      ∀ id session, s.devices id = some session → s.closed session.transport = false) := by
  have hinv : Inv s := by
    refine h.invariant ?_ fun _ _ _ => Inv.step
    rintro _ ⟨closed, rfl⟩
    exact .initial closed
  refine ⟨fun id session hentry => (hinv.keyed id session hentry).1,
    fun monitor t hstep id session hentry => hinv.eq_of_monitor hstep hentry, ?_⟩
  intro hsettled
  have hiff := hinv.devices_iff hsettled
  refine ⟨fun session => (hiff session).symm, ?_, ?_⟩
  · intro a ha b hb hopen hopen' hid
    have hentry := (hiff a).mpr ⟨ha, hopen⟩
    have hentry' := (hiff b).mpr ⟨hb, hopen'⟩
    rw [hid] at hentry
    exact Option.some.inj (hentry.symm.trans hentry')
  · intro id session hentry
    obtain rfl := (hinv.keyed id session hentry).1
    exact ((hiff session).mp hentry).2

section Runs

variable {s : State}

theorem leads_registered (session : Session)
    (hown : ∀ other ∈ s.registered, other.transport = session.transport → other = session)
    (hfree : s.devices session.id = none) (hheartbeat : session.heartbeat = false) :
    system.Leads s { s with
      devices := Function.update s.devices session.id (some session),
      registered := session :: s.registered, tasks := s.tasks ++ [.waiting session] } := by
  have hregister := Step.register hown
  rw [hfree] at hregister
  exact System.Leads.head hregister <|
    System.Leads.head (@Step.keep _ session none _ (fun _ h => nomatch h) (.last _ _ _)) <|
    System.Leads.head (.noHeartbeat hheartbeat (.last _ _ _)) <|
    System.Leads.head (.spawnMonitor (.last _ _ _)) .refl

theorem leads_replaced (session existing : Session)
    (hown : ∀ other ∈ s.registered, other.transport = session.transport → other = session)
    (hprevious : s.devices session.id = some existing)
    (hother : existing.sameConnection session = false)
    (hopen : s.closed existing.transport = false) (hheartbeat : session.heartbeat = false) :
    system.Leads s { s with
      devices := Function.update s.devices session.id (some session),
      closed := Function.update s.closed existing.transport true,
      registered := session :: s.registered,
      tasks := s.tasks ++ [.waiting session] ++ [.done] } := by
  have hregister := Step.register hown
  rw [hprevious] at hregister
  exact System.Leads.head hregister <|
    System.Leads.head (.replace hother hopen (.last _ _ _)) <|
    System.Leads.head (.noHeartbeat hheartbeat (.append (.last _ _ _) _)) <|
    System.Leads.head (.spawnMonitor (.append (.last _ _ _) _)) <|
    System.Leads.head (.close (.last _ _ _)) .refl

theorem leads_monitored (before after : List Task) (monitor session : Session)
    (htasks : s.tasks = before ++ .waiting monitor :: after)
    (hclosed : s.closed monitor.transport = true)
    (hentry : s.devices monitor.id = some session)
    (hother : session.sameConnection monitor = false) :
    system.Leads s { s with tasks := before ++ .done :: after } := by
  have hstay : s.removeDeviceIfSame monitor = s := by
    simp [State.removeDeviceIfSame, hentry, hother]
  have hremove := @Step.remove { s with tasks := before ++ .removing monitor :: after } monitor _
    ⟨before, after, rfl, rfl⟩
  have hleave :
      ({ s with tasks := before ++ .removing monitor :: after } : State).removeDeviceIfSame
        monitor = { s with tasks := before ++ .removing monitor :: after } := by
    simp [State.removeDeviceIfSame, hentry, hother]
  rw [hleave] at hremove
  exact System.Leads.head (.wake hclosed ⟨before, after, htasks, rfl⟩) <|
    System.Leads.head hremove .refl

end Runs

def firstSession : Session := ⟨.replicate 16 7, 0, false⟩
def secondSession : Session := ⟨.replicate 16 7, 1, false⟩

/-- A device that connects again while its old session is still open. -/
def reconnected : State where
  devices := Function.update (Function.update (fun _ => none) firstSession.id (some firstSession))
    secondSession.id (some secondSession)
  closed := Function.update (fun _ => false) 0 true
  registered := [secondSession, firstSession]
  tasks := [.done, .waiting secondSession, .done]

theorem reachable_reconnected : system.Reachable reconnected := by
  refine ⟨.initial fun _ => false, ⟨_, rfl⟩, ?_⟩
  refine (leads_registered firstSession ?_ rfl rfl).trans ?_
  · simp [State.initial]
  refine (leads_replaced secondSession firstSession ?_ ?_ rfl rfl rfl).trans ?_
  · simp [State.initial, firstSession, secondSession]
  · simp [firstSession, secondSession]
  exact leads_monitored [] _ firstSession secondSession rfl (by simp [firstSession])
    (by simp [firstSession, secondSession]) rfl

theorem registry_consistent_reconnected :
    reconnected.devices firstSession.id = some secondSession ∧
      secondSession ∈ reconnected.registered ∧ reconnected.closed 1 = false := by
  have hsettled : reconnected.Settled := by
    simp only [State.Settled, reconnected, List.forall_mem_cons]
    exact ⟨rfl, rfl, rfl, List.forall_mem_nil _⟩
  have hentry : reconnected.devices firstSession.id = some secondSession := by
    simp [reconnected, firstSession, secondSession]
  obtain ⟨_, _, hopen⟩ := registry_consistent reachable_reconnected
  exact ⟨hentry, ((hopen hsettled).1 secondSession).mpr hentry⟩

end SideWire.DeviceRegistry
