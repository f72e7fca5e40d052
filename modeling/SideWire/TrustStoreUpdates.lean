import Mathlib.Logic.Function.Basic
import SideWire.Base.TaskPool
import SideWire.Base.TransitionSystem
import SideWire.PairingStore

/-!
The trust store file of the host under calls of `host_id`, `save_device` and `remove_device`
from any number of connections and processes: each loads the whole store and saves it whole.
-/

namespace SideWire.TrustStoreUpdates

open SideWire.TransitionSystem
open SideWire.TaskPool
open SideWire.PairingStore

/-- What a call changes in the store that it has loaded. -/
inductive Change
  | hostId (id : DeviceId)
  | saveDevice (id : DeviceId) (name : Text) (secret : Key)
  | removeDevice (key : Text)
  deriving DecidableEq

def Change.apply (store : TrustStore) : Change → TrustStore
  | .hostId id => { store with hostId := some id }
  | .saveDevice id name secret =>
      { store with
        devices := Function.update store.devices (DeviceId.toHex id)
          (some ⟨id, name, keyToHex secret⟩) }
  | .removeDevice key => { store with devices := Function.update store.devices key none }

/-- The entries that a selector of `remove_device` matches. -/
def RemoveMatches (store : TrustStore) (selector key : Text) : Prop :=
  ∃ device, store.devices key = some device ∧
    ((toAsciiLowercase (trim selector)).isPrefixOf key = true ∨
      eqIgnoreAsciiCase device.name (toAsciiLowercase (trim selector)) = true)

/-- A call between its load and its save, with the store it has loaded. -/
inductive Task
  | saving (change : Change) (loaded : TrustStore)
  | done

/-- The file, the calls, the ids that `host_id` has returned, and for each device the secret
of the last `save_device` that has completed, unless a `remove_device` has completed since. -/
structure State where
  file : TrustStore
  tasks : List Task
  returned : List DeviceId
  paired : DeviceId → Option Key

def State.initial (file : TrustStore) : State where
  file := file
  tasks := []
  returned := []
  paired := fun _ => none

/-- What the completion of a call adds to what is to be kept. -/
def State.complete (s : State) : Change → State
  | .hostId id => { s with returned := id :: s.returned }
  | .saveDevice id _ secret => { s with paired := Function.update s.paired id (some secret) }
  | .removeDevice key =>
      { s with paired := fun id => if DeviceId.toHex id = key then none else s.paired id }

inductive Action
  | save (change : Change) (loaded : TrustStore)
  | other

inductive Step : State → Action → State → Prop
  -- `host_id` with an id in the store
  | hostIdKnown {s : State} {id : DeviceId} (hid : s.file.hostId = some id) :
      Step s .other { s with returned := id :: s.returned }
  -- `host_id` with an id that it has drawn
  | hostIdLoads {s : State} {id : DeviceId} (hid : s.file.hostId = none) :
      Step s .other { s with tasks := s.tasks ++ [.saving (.hostId id) s.file] }
  | saveDeviceLoads {s : State} {id : DeviceId} {name : Text} {secret : Key} :
      Step s .other { s with tasks := s.tasks ++ [.saving (.saveDevice id name secret) s.file] }
  | removeDeviceLoads {s : State} {selector key : Text} (hmatch : RemoveMatches s.file selector key)
      (hsole : ∀ other, RemoveMatches s.file selector other → other = key) :
      Step s .other { s with tasks := s.tasks ++ [.saving (.removeDevice key) s.file] }
  -- no match, or several
  | removeDeviceFails {s : State} {selector : Text}
      (hfails : ¬ ∃ key, RemoveMatches s.file selector key ∧
        ∀ other, RemoveMatches s.file selector other → other = key) :
      Step s .other s
  | save {s : State} {change : Change} {loaded : TrustStore} {tasks : List Task}
      (htask : Replaces (.saving change loaded) .done s.tasks tasks) :
      Step s (.save change loaded)
        { s.complete change with file := change.apply loaded, tasks := tasks }

def system : System State Action where
  init := fun s => ∃ file, s = .initial file
  step := Step

/-- The trust module on the file as it is. -/
def State.trust (s : State) : Trust where
  storeForId := .ok s.file
  storeForSecret := .ok s.file
  randomId := .replicate 16 0
  saveStore := fun _ => .ok ()

/-- Every call of `host_id` has returned the persisted id, and every device that is paired is
found with its secret. -/
structure State.Kept (s : State) : Prop where
  sameId : ∀ a ∈ s.returned, ∀ b ∈ s.returned, a = b
  persisted : ∀ id ∈ s.returned, s.file.hostId = some id
  secrets : ∀ id secret, s.paired id = some secret → s.trust.deviceSecret id = .ok (some secret)

/-- A save that takes no other call's update back: outside of what the call changes the file
still has what it has loaded. -/
def Current (file loaded : TrustStore) : Change → Prop
  | .hostId _ => file.hostId = loaded.hostId ∧ file.devices = loaded.devices
  | .saveDevice id _ _ => file.hostId = loaded.hostId ∧
      ∀ key, key ≠ DeviceId.toHex id → file.devices key = loaded.devices key
  | .removeDevice key => file.hostId = loaded.hostId ∧
      ∀ other, other ≠ key → file.devices other = loaded.devices other

def Action.current (s : State) : Action → Prop
  | .save change loaded => Current s.file loaded change
  | .other => True

/-- A call of `host_id` that saves has loaded a store without an id. -/
def Task.Drawn : Task → Prop
  | .saving (.hostId _) loaded => loaded.hostId = none
  | _ => True

structure Inv (s : State) : Prop where
  drawn : ∀ task ∈ s.tasks, task.Drawn
  persisted : ∀ id ∈ s.returned, s.file.hostId = some id
  stored : ∀ id secret, s.paired id = some secret →
    ∃ name, s.file.devices (DeviceId.toHex id) = some ⟨id, name, keyToHex secret⟩

section Invariant

variable {s t : State}

theorem inv_initial (file : TrustStore) : Inv (.initial file) where
  drawn := by simp [State.initial]
  persisted := by simp [State.initial]
  stored := by simp [State.initial]

theorem Inv.kept (h : Inv s) : s.Kept where
  sameId := by
    intro a ha b hb
    exact Option.some.inj ((h.persisted a ha).symm.trans (h.persisted b hb))
  persisted := h.persisted
  secrets := by
    intro id secret hpaired
    obtain ⟨name, hstored⟩ := h.stored id secret hpaired
    simp [Trust.deviceSecret, State.trust, hstored, bind, Except.bind, keyFromHex_keyToHex]

theorem Inv.load (h : Inv s) {task : Task} (htask : task.Drawn) :
    Inv { s with tasks := s.tasks ++ [task] } where
  drawn := List.forall_mem_append.mpr ⟨h.drawn, List.forall_mem_singleton.mpr htask⟩
  persisted := h.persisted
  stored := h.stored

theorem Inv.save (h : Inv s) {change : Change} {loaded : TrustStore} {tasks : List Task}
    (htask : Replaces (.saving change loaded) .done s.tasks tasks)
    (hcurrent : Current s.file loaded change) :
    Inv { s.complete change with file := change.apply loaded, tasks := tasks } := by
  have hdrawn : ∀ task ∈ tasks, task.Drawn := htask.forall_mem h.drawn trivial
  cases change with
  | hostId id =>
      have hnone : loaded.hostId = none := h.drawn _ htask.mem
      obtain ⟨hid, hdevices⟩ := hcurrent
      have hreturned : s.returned = [] := by
        apply List.eq_nil_iff_forall_not_mem.mpr
        intro other hother
        exact nomatch (h.persisted other hother).symm.trans (hid.trans hnone)
      refine ⟨hdrawn, ?_, ?_⟩
      · intro other hother
        obtain rfl : other = id := by simpa [State.complete, hreturned] using hother
        rfl
      · intro other secret hpaired
        obtain ⟨name, hstored⟩ := h.stored other secret hpaired
        exact ⟨name, (congrFun hdevices _).symm.trans hstored⟩
  | saveDevice id name secret =>
      obtain ⟨hid, hdevices⟩ := hcurrent
      refine ⟨hdrawn, fun other hother => hid.symm.trans (h.persisted other hother), ?_⟩
      intro other secret' hpaired
      rcases eq_or_ne other id with rfl | hne
      · obtain rfl : secret = secret' := by simpa [State.complete] using hpaired
        exact ⟨name, Function.update_self ..⟩
      · have hkey : DeviceId.toHex other ≠ DeviceId.toHex id :=
          fun heq => hne (DeviceId.toHex_inj heq)
        obtain ⟨name', hstored⟩ := h.stored other secret' (by
          simpa [State.complete, Function.update_of_ne hne] using hpaired)
        exact ⟨name', (Function.update_of_ne hkey _ _).trans ((hdevices _ hkey).symm.trans hstored)⟩
  | removeDevice key =>
      obtain ⟨hid, hdevices⟩ := hcurrent
      refine ⟨hdrawn, fun other hother => hid.symm.trans (h.persisted other hother), ?_⟩
      intro other secret hpaired
      simp only [State.complete] at hpaired
      split_ifs at hpaired with hkey
      obtain ⟨name, hstored⟩ := h.stored other secret hpaired
      exact ⟨name, (Function.update_of_ne hkey _ _).trans ((hdevices _ hkey).symm.trans hstored)⟩

theorem Inv.step {a : Action} (h : Inv s) (hcurrent : a.current s) (hstep : Step s a t) :
    Inv t := by
  cases hstep with
  | hostIdKnown hid =>
      refine ⟨h.drawn, ?_, h.stored⟩
      rintro id (_ | ⟨_, hmem⟩)
      · exact hid
      · exact h.persisted id hmem
  | hostIdLoads hid => exact h.load hid
  | saveDeviceLoads => exact h.load trivial
  | removeDeviceLoads => exact h.load trivial
  | removeDeviceFails => exact h
  | save htask => exact h.save htask hcurrent

end Invariant

/-- In every run in which no save takes back another call's update, nothing is lost. -/
theorem kept_of_current {file : TrustStore} {t : State} {trace : List (State × Action)}
    (hrun : system.Run (.initial file) trace t) (hcurrent : ∀ p ∈ trace, p.2.current p.1) :
    ∀ s ∈ System.visited trace t, s.Kept := by
  intro s hs
  have hinv := hrun.visited_of_steps (fun s a => a.current s)
    (fun _ _ _ h hok hstep => h.step hok hstep) (inv_initial file) hcurrent
  exact (hinv s hs).kept

/-- The store of a host that has never been used. -/
def emptyStore : TrustStore := ⟨none, fun _ => none⟩

def firstId : DeviceId := .replicate 16 1
def secondId : DeviceId := .replicate 16 2

def firstPairing : Change := .saveDevice firstId [] (.replicate 32 7)
def secondPairing : Change := .saveDevice secondId [] (.replicate 32 8)

def onePhone : TrustStore := firstPairing.apply emptyStore
def twoPhones : TrustStore := secondPairing.apply onePhone

def oneSecret : DeviceId → Option Key :=
  Function.update (fun _ => none) firstId (some (.replicate 32 7))

def twoSecrets : DeviceId → Option Key :=
  Function.update oneSecret secondId (some (.replicate 32 8))

/-- Two pairings and a call of `host_id` that have followed one another. -/
def pairedTrace : List (State × Action) :=
  [(.initial emptyStore, .other),
    (⟨emptyStore, [.saving firstPairing emptyStore], [], fun _ => none⟩,
      .save firstPairing emptyStore),
    (⟨onePhone, [.done], [], oneSecret⟩, .other),
    (⟨onePhone, [.done, .saving secondPairing onePhone], [], oneSecret⟩,
      .save secondPairing onePhone),
    (⟨twoPhones, [.done, .done], [], twoSecrets⟩, .other),
    (⟨twoPhones, [.done, .done, .saving (.hostId firstId) twoPhones], [], twoSecrets⟩,
      .save (.hostId firstId) twoPhones)]

def pairedState : State :=
  ⟨Change.apply twoPhones (.hostId firstId), [.done, .done, .done], [firstId], twoSecrets⟩

theorem run_pairedTrace : system.Run (.initial emptyStore) pairedTrace pairedState := by
  have hsecond := @Step.save ⟨onePhone, [.done, .saving secondPairing onePhone], [], oneSecret⟩
    secondPairing onePhone _ ⟨[.done], [], rfl, rfl⟩
  have hid := @Step.save
    ⟨twoPhones, [.done, .done, .saving (.hostId firstId) twoPhones], [], twoSecrets⟩
    (.hostId firstId) twoPhones _ ⟨[.done, .done], [], rfl, rfl⟩
  exact .cons .saveDeviceLoads (.cons (.save ⟨[], [], rfl, rfl⟩) (.cons .saveDeviceLoads
    (.cons hsecond (.cons (.hostIdLoads rfl) (.cons hid (.nil _))))))

theorem kept_of_current_paired :
    pairedState.Kept ∧ pairedState.returned = [firstId] ∧
      pairedState.paired firstId = some (.replicate 32 7) ∧
      pairedState.paired secondId = some (.replicate 32 8) := by
  have hcurrent : ∀ p ∈ pairedTrace, p.2.current p.1 := by
    simp only [pairedTrace, List.forall_mem_cons]
    exact ⟨trivial, ⟨rfl, fun _ _ => rfl⟩, trivial, ⟨rfl, fun _ _ => rfl⟩, trivial, ⟨rfl, rfl⟩,
      List.forall_mem_nil _⟩
  have hkept := kept_of_current run_pairedTrace hcurrent pairedState (by simp [System.visited])
  exact ⟨hkept, rfl, rfl, rfl⟩

section Overlaps

/-- Two calls that have both loaded the empty store. -/
def State.overlap (first second : Change) : State where
  file := emptyStore
  tasks := [.saving first emptyStore, .saving second emptyStore]
  returned := []
  paired := fun _ => none

theorem leads_overlap (first second : Change) :
    system.Leads (State.overlap first second)
      { ((State.overlap first second).complete first).complete second with
        file := second.apply emptyStore, tasks := [.done, .done] } := by
  have hsecond : Step { (State.overlap first second).complete first with
      file := first.apply emptyStore, tasks := [.done, .saving second emptyStore] }
      (.save second emptyStore) _ := .save ⟨[.done], [], rfl, rfl⟩
  have hlast := System.Leads.head (M := system)
    (@Step.save (State.overlap first second) first emptyStore _ ⟨[], _, rfl, rfl⟩)
    (.single hsecond)
  cases first <;> cases second <;> exact hlast

/-- Two first calls of `host_id` return two ids, and of two pairings that overlap one is
lost. -/
theorem updates_lost :
    (∃ s, system.Reachable s ∧ s.returned = [secondId, firstId] ∧ ¬ s.Kept) ∧
      ∃ s, system.Reachable s ∧ s.paired firstId = some (.replicate 32 7) ∧
        s.trust.deviceSecret firstId = .ok none := by
  have hinitial : system.Reachable (.initial emptyStore) := ⟨_, ⟨_, rfl⟩, .refl⟩
  have hne : secondId ≠ firstId := by decide
  refine ⟨?_, ?_⟩
  · have hids : system.Leads (.initial emptyStore)
        (.overlap (.hostId firstId) (.hostId secondId)) :=
      System.Leads.head (.hostIdLoads rfl) <| System.Leads.head (.hostIdLoads rfl) .refl
    refine ⟨_, hinitial.leads (hids.trans (leads_overlap _ _)), rfl, ?_⟩
    intro hkept
    exact hne (hkept.sameId secondId List.mem_cons_self firstId
      (List.mem_cons_of_mem _ List.mem_cons_self))
  · have hpairings : system.Leads (.initial emptyStore)
        (.overlap (.saveDevice firstId [] (.replicate 32 7))
          (.saveDevice secondId [] (.replicate 32 8))) :=
      System.Leads.head .saveDeviceLoads <| System.Leads.head .saveDeviceLoads .refl
    refine ⟨_, hinitial.leads (hpairings.trans (leads_overlap _ _)), ?_, ?_⟩
    · simp [State.complete, State.overlap, Function.update_of_ne hne.symm]
    · have hkey : DeviceId.toHex firstId ≠ DeviceId.toHex secondId :=
        fun heq => hne (DeviceId.toHex_inj heq).symm
      have hlost : (Change.apply emptyStore
          (.saveDevice secondId [] (.replicate 32 8))).devices (DeviceId.toHex firstId) = none := by
        simp [Change.apply, Function.update_of_ne hkey, emptyStore]
      simp [Trust.deviceSecret, State.trust, hlost, bind, Except.bind]

end Overlaps

end SideWire.TrustStoreUpdates
