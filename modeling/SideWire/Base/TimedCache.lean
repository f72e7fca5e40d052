import Mathlib.Data.List.Nodup
import Mathlib.Order.Nat
import SideWire.Base.TaskPool
import SideWire.Base.TransitionSystem

/-!
A cache with a time to live, in front of a source that changes all the time and that is read one
entry after the other. Its callers take turns with the cache, and read the source at once.
-/

namespace SideWire.TimedCache

open SideWire.TransitionSystem
open SideWire.TaskPool

/-- Which entries there are at a time, and what a look at one of them may tell. -/
structure Source (Key Entry Item : Type*) where
  present : Nat → Key → Entry → Prop
  describes : Nat → Key → Entry → Item → Prop

structure Loaded (Item : Type*) where
  loadedAt : Nat
  items : List Item

/-- A cache has one value for a key, and at most `limit` keys. -/
structure Cache (Key Item : Type*) (limit : Nat) where
  entries : List (Key × Loaded Item)
  nodup : (entries.map Prod.fst).Nodup
  length_le : entries.length ≤ limit

section Cache

variable {Key Item : Type*} {limit : Nat}

def Cache.empty : Cache Key Item limit := ⟨[], List.nodup_nil, Nat.zero_le _⟩

variable [DecidableEq Key]

def Cache.find (cache : Cache Key Item limit) (key : Key) : Option (Loaded Item) :=
  (cache.entries.find? fun entry => decide (entry.1 = key)).map Prod.snd

/-- A full cache is cleared before it takes in one more value. -/
def Cache.insert (hlimit : 0 < limit) (cache : Cache Key Item limit) (key : Key)
    (loaded : Loaded Item) : Cache Key Item limit :=
  if hfull : limit ≤ cache.entries.length then
    ⟨[(key, loaded)], List.nodup_singleton _, hlimit⟩
  else
    { entries := (key, loaded) :: cache.entries.filter fun entry => decide (entry.1 ≠ key)
      nodup := by
        refine List.nodup_cons.mpr ⟨by simp, cache.nodup.sublist ?_⟩
        exact List.filter_sublist.map _
      length_le := by
        have hle := List.length_filter_le (fun entry => decide (entry.1 ≠ key)) cache.entries
        rw [List.length_cons]
        omega }

theorem Cache.mem_of_find {cache : Cache Key Item limit} {key : Key} {loaded : Loaded Item}
    (h : cache.find key = some loaded) : (key, loaded) ∈ cache.entries := by
  obtain ⟨⟨key', loaded'⟩, hfind, rfl⟩ := Option.map_eq_some_iff.mp h
  obtain rfl : key' = key := by simpa using List.find?_some hfind
  exact List.mem_of_find?_eq_some hfind

theorem Cache.mem_insert {hlimit : 0 < limit} {cache : Cache Key Item limit} {key : Key}
    {loaded : Loaded Item} {entry : Key × Loaded Item}
    (h : entry ∈ (cache.insert hlimit key loaded).entries) :
    entry = (key, loaded) ∨ entry ∈ cache.entries := by
  unfold Cache.insert at h
  split_ifs at h with hfull
  · exact .inl (List.mem_singleton.mp h)
  · rcases List.mem_cons.mp h with rfl | hmem
    · exact .inl rfl
    · exact .inr (List.mem_of_mem_filter hmem)

end Cache

/-- A caller: it looks into the cache, reads the source, and has a result in the end. -/
inductive Call (Key Entry Item : Type*)
  | looking (key : Key)
  | reading (key : Key) (began : Nat) (read : List (Entry × Item))
  | describing (key : Key) (began : Nat) (read : List (Entry × Item)) (entry : Entry)
  | returned (key : Key) (items : List Item) (time : Nat)
  | failed (key : Key)

structure State (Key Entry Item : Type*) (limit : Nat) where
  now : Nat
  cache : Cache Key Item limit
  calls : List (Call Key Entry Item)

section System

variable {Key Entry Item : Type*} [DecidableEq Key] {limit : Nat} (hlimit : 0 < limit)
  (timeToLive : Nat) (source : Source Key Entry Item)

def State.initial (now : Nat) : State Key Entry Item limit := ⟨now, .empty, []⟩

/-- The cache has a value for the key that is not too old. -/
def State.Fresh (s : State Key Entry Item limit) (key : Key) (loaded : Loaded Item) : Prop :=
  s.cache.find key = some loaded ∧ s.now - loaded.loadedAt ≤ timeToLive

inductive Action
  | time
  | call
  deriving DecidableEq

inductive Step : State Key Entry Item limit → Action → State Key Entry Item limit → Prop
  | tick {s : State Key Entry Item limit} : Step s .time { s with now := s.now + 1 }
  | call {s : State Key Entry Item limit} (key : Key) :
      Step s .call { s with calls := s.calls ++ [.looking key] }
  | hit {s : State Key Entry Item limit} {key : Key} {loaded : Loaded Item}
      {calls : List (Call Key Entry Item)} (hfresh : s.Fresh timeToLive key loaded)
      (hcall : Replaces (.looking key) (.returned key loaded.items s.now) s.calls calls) :
      Step s .call { s with calls := calls }
  | miss {s : State Key Entry Item limit} {key : Key} {calls : List (Call Key Entry Item)}
      (hmiss : ∀ loaded, ¬ s.Fresh timeToLive key loaded)
      (hcall : Replaces (.looking key) (.reading key s.now []) s.calls calls) :
      Step s .call { s with calls := calls }
  | next {s : State Key Entry Item limit} {key : Key} {began : Nat} {read : List (Entry × Item)}
      {entry : Entry} {calls : List (Call Key Entry Item)}
      (hpresent : source.present s.now key entry)
      (hcall : Replaces (.reading key began read) (.describing key began read entry)
        s.calls calls) :
      Step s .call { s with calls := calls }
  | describe {s : State Key Entry Item limit} {key : Key} {began : Nat}
      {read : List (Entry × Item)} {entry : Entry} {item : Item}
      {calls : List (Call Key Entry Item)} (hitem : source.describes s.now key entry item)
      (hcall : Replaces (.describing key began read entry)
        (.reading key began (read ++ [(entry, item)])) s.calls calls) :
      Step s .call { s with calls := calls }
  | fail {s : State Key Entry Item limit} {key : Key} {began : Nat} {read : List (Entry × Item)}
      {calls : List (Call Key Entry Item)}
      (hcall : Replaces (.reading key began read) (.failed key) s.calls calls) :
      Step s .call { s with calls := calls }
  | describeFails {s : State Key Entry Item limit} {key : Key} {began : Nat}
      {read : List (Entry × Item)} {entry : Entry} {calls : List (Call Key Entry Item)}
      (hcall : Replaces (.describing key began read entry) (.failed key) s.calls calls) :
      Step s .call { s with calls := calls }
  -- the end of the source: an entry that has been there all the time has been read
  | load {s : State Key Entry Item limit} {key : Key} {began : Nat} {read : List (Entry × Item)}
      {calls : List (Call Key Entry Item)}
      (hall : ∀ entry, (∀ time, began ≤ time → time ≤ s.now → source.present time key entry) →
        entry ∈ read.map Prod.fst)
      (hcall : Replaces (.reading key began read) (.returned key (read.map Prod.snd) s.now)
        s.calls calls) :
      Step s .call { s with
        cache := s.cache.insert hlimit key ⟨s.now, read.map Prod.snd⟩, calls := calls }

def system : System (State Key Entry Item limit) Action where
  init := fun s => ∃ now, s = .initial now
  step := Step hlimit timeToLive source

end System

section Reading

variable {Key Entry Item : Type*} (source : Source Key Entry Item)

/-- Each pair is an entry of the source and what a later look at it has told. -/
def ReadBetween (key : Key) (began ended : Nat) (read : List (Entry × Item)) : Prop :=
  ∀ pair ∈ read, ∃ time time', began ≤ time ∧ time ≤ time' ∧ time' ≤ ended ∧
    source.present time key pair.1 ∧ source.describes time' key pair.1 pair.2

/-- The items tell of the source between the two times: only of what has been there, and of all
that has been there the whole time. -/
def ReadingOf (key : Key) (began ended : Nat) (items : List Item) : Prop :=
  ∃ read : List (Entry × Item), items = read.map Prod.snd ∧
    ReadBetween source key began ended read ∧
    ∀ entry, (∀ time, began ≤ time → time ≤ ended → source.present time key entry) →
      entry ∈ read.map Prod.fst

variable {source} {key : Key} {began ended ended' : Nat} {read : List (Entry × Item)}

theorem ReadBetween.mono (hle : ended ≤ ended') (h : ReadBetween source key began ended read) :
    ReadBetween source key began ended' read := by
  intro pair hmem
  obtain ⟨time, time', hbegan, hlater, hended, hpair⟩ := h pair hmem
  exact ⟨time, time', hbegan, hlater, hended.trans hle, hpair⟩

/-- In a source that does not change, the entries read are all there are. -/
theorem ReadingOf.exact {items : List Item} (h : ReadingOf source key began ended items)
    (hsteady : ∀ time entry, began ≤ time → time ≤ ended →
      (source.present time key entry ↔ source.present ended key entry)) :
    ∃ read : List (Entry × Item), items = read.map Prod.snd ∧
      (∀ entry, entry ∈ read.map Prod.fst ↔ source.present ended key entry) ∧
      ∀ pair ∈ read, ∃ time, began ≤ time ∧ time ≤ ended ∧
        source.describes time key pair.1 pair.2 := by
  obtain ⟨read, hitems, hread, hall⟩ := h
  refine ⟨read, hitems, fun entry => ⟨?_, ?_⟩, ?_⟩
  · intro hmem
    obtain ⟨pair, hpair, rfl⟩ := List.mem_map.mp hmem
    obtain ⟨time, time', hbegan, hlater, hended, hpresent, -⟩ := hread pair hpair
    exact (hsteady time _ hbegan (hlater.trans hended)).mp hpresent
  · intro hpresent
    exact hall entry fun time hbegan hended => (hsteady time entry hbegan hended).mpr hpresent
  · intro pair hpair
    obtain ⟨time, time', hbegan, hlater, hended, -, hitem⟩ := hread pair hpair
    exact ⟨time', hbegan.trans hlater, hended, hitem⟩

end Reading

section Invariant

variable {Key Entry Item : Type*} {limit : Nat} {timeToLive : Nat}
  {source : Source Key Entry Item} {s t : State Key Entry Item limit}

/-- What a caller holds at a time. -/
def Call.Proper (timeToLive : Nat) (source : Source Key Entry Item) (now : Nat) :
    Call Key Entry Item → Prop
  | .looking _ | .failed _ => True
  | .reading key began read => began ≤ now ∧ ReadBetween source key began now read
  | .describing key began read entry =>
      began ≤ now ∧ ReadBetween source key began now read ∧
        ∃ time, began ≤ time ∧ time ≤ now ∧ source.present time key entry
  | .returned key items time =>
      ∃ began loaded, began ≤ loaded ∧ loaded ≤ time ∧ time ≤ loaded + timeToLive ∧
        time ≤ now ∧ ReadingOf source key began loaded items

theorem Call.Proper.mono {now now' : Nat} (hle : now ≤ now') {call : Call Key Entry Item}
    (h : call.Proper timeToLive source now) : call.Proper timeToLive source now' := by
  cases call with
  | looking | failed => trivial
  | reading => exact ⟨h.1.trans hle, h.2.mono hle⟩
  | describing =>
      obtain ⟨hbegan, hread, time, htime, hnow, hpresent⟩ := h
      exact ⟨hbegan.trans hle, hread.mono hle, time, htime, hnow.trans hle, hpresent⟩
  | returned =>
      obtain ⟨began, loaded, hbegan, hloaded, hold, hnow, hreading⟩ := h
      exact ⟨began, loaded, hbegan, hloaded, hold, hnow.trans hle, hreading⟩

structure Inv (timeToLive : Nat) (source : Source Key Entry Item)
    (s : State Key Entry Item limit) : Prop where
  calls : ∀ call ∈ s.calls, call.Proper timeToLive source s.now
  cached : ∀ entry ∈ s.cache.entries, entry.2.loadedAt ≤ s.now ∧
    ∃ began, began ≤ entry.2.loadedAt ∧
      ReadingOf source entry.1 began entry.2.loadedAt entry.2.items

theorem Inv.initial (now : Nat) :
    Inv timeToLive source (.initial now : State Key Entry Item limit) where
  calls := List.forall_mem_nil _
  cached := List.forall_mem_nil _

theorem Inv.move (h : Inv timeToLive source s) {call call' : Call Key Entry Item}
    {calls : List (Call Key Entry Item)} (hcall : Replaces call call' s.calls calls)
    (hproper : call'.Proper timeToLive source s.now) :
    Inv timeToLive source { s with calls := calls } where
  calls := hcall.forall_mem h.calls hproper
  cached := h.cached

variable [DecidableEq Key] {hlimit : 0 < limit}

theorem Inv.load (h : Inv timeToLive source s) {key : Key} {began : Nat}
    {read : List (Entry × Item)} {calls : List (Call Key Entry Item)}
    (hall : ∀ entry, (∀ time, began ≤ time → time ≤ s.now → source.present time key entry) →
      entry ∈ read.map Prod.fst)
    (hcall : Replaces (.reading key began read) (.returned key (read.map Prod.snd) s.now)
      s.calls calls) :
    Inv timeToLive source { s with
      cache := s.cache.insert hlimit key ⟨s.now, read.map Prod.snd⟩, calls := calls } := by
  obtain ⟨hbegan, hread⟩ := h.calls _ hcall.mem
  have hreading : ReadingOf source key began s.now (read.map Prod.snd) :=
    ⟨read, rfl, hread, hall⟩
  have hreturned : (Call.returned key (read.map Prod.snd) s.now).Proper timeToLive source
      s.now :=
    ⟨began, s.now, hbegan, le_rfl, Nat.le_add_right _ _, le_rfl, hreading⟩
  refine ⟨hcall.forall_mem h.calls hreturned, ?_⟩
  intro entry hmem
  rcases Cache.mem_insert hmem with rfl | hold
  · exact ⟨le_rfl, began, hbegan, hreading⟩
  · exact h.cached entry hold

theorem Inv.step (h : Inv timeToLive source s) {action : Action}
    (hstep : Step hlimit timeToLive source s action t) : Inv timeToLive source t := by
  cases hstep with
  | tick =>
      have hle := Nat.le_succ s.now
      refine ⟨fun call hmem => (h.calls call hmem).mono hle, fun entry hmem => ?_⟩
      exact ⟨(h.cached entry hmem).1.trans hle, (h.cached entry hmem).2⟩
  | call key =>
      refine ⟨?_, h.cached⟩
      simp only [List.forall_mem_append, List.forall_mem_singleton]
      exact ⟨h.calls, trivial⟩
  | @hit key loaded _ hfresh hcall =>
      obtain ⟨hfind, hyoung⟩ := hfresh
      obtain ⟨hloaded, began, hbegan, hreading⟩ := h.cached _ (Cache.mem_of_find hfind)
      refine h.move hcall ⟨began, loaded.loadedAt, hbegan, hloaded, ?_, le_rfl, hreading⟩
      omega
  | miss _ hcall => exact h.move hcall ⟨le_rfl, List.forall_mem_nil _⟩
  | next hpresent hcall =>
      obtain ⟨hbegan, hread⟩ := h.calls _ hcall.mem
      exact h.move hcall ⟨hbegan, hread, s.now, hbegan, le_rfl, hpresent⟩
  | describe hitem hcall =>
      obtain ⟨hbegan, hread, time, htime, hnow, hpresent⟩ := h.calls _ hcall.mem
      refine h.move hcall ⟨hbegan, ?_⟩
      rw [ReadBetween, List.forall_mem_append, List.forall_mem_singleton]
      exact ⟨hread, time, s.now, htime, hnow, le_rfl, hpresent, hitem⟩
  | fail hcall | describeFails hcall => exact h.move hcall trivial
  | load hall hcall => exact h.load hall hcall

theorem inv_of_reachable (h : (system hlimit timeToLive source).Reachable s) :
    Inv timeToLive source s := by
  refine h.invariant ?_ fun _ _ _ hinv hstep => hinv.step hstep
  rintro _ ⟨now, rfl⟩
  exact .initial now

end Invariant

end SideWire.TimedCache
