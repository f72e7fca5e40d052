import SideWire.Base.TransitionSystem
import SideWire.FrameCodec

/-!
`device_heartbeat` on the server, the link, and the loop of the device that waits for a frame no
longer than `HOST_SILENCE_TIMEOUT_SECS`. Time is in milliseconds; a timer goes off at its time or
up to `slack` later.
-/

namespace SideWire.Heartbeat

open SideWire.ByteString
open SideWire.TransitionSystem

def heartbeatInterval : Nat := 10 * 1000
def heartbeatTimeout : Nat := 10 * 1000
def heartbeatMaxMisses : Nat := 3
def hostSilenceTimeout : Nat := 45 * 1000

/-- Where `device_heartbeat` stands: in its `sleep`, in the `timeout` over `remote_ping`, or
returned. -/
inductive Beat
  | sleeping (wakesAt misses : Nat)
  | pinging (stream : Nat) (nonce : Bytes) (deadline misses : Nat)
  | ended

/-- The time of its timer. -/
def Beat.due : Beat → Option Nat
  | .sleeping wakesAt _ => some wakesAt
  | .pinging _ _ deadline _ => some deadline
  | .ended => none

/-- A frame on the link, with the time at which it was sent. -/
structure InFlight (α : Type*) where
  sentAt : Nat
  frame : α

/-- What the server sends: a `Ping` on a stream of its own, or anything else. -/
inductive Request
  | ping (stream : Nat) (nonce : Bytes)
  | other

/-- What the device sends: a first frame on the stream of a ping, which may be a `Pong`, or a frame
for somebody else. -/
inductive Reply
  | reply (stream : Nat) (pong : Option Bytes)
  | other

/-- The loop of the device: it waits for a frame, or it is busy with one, as with the write of a
`Pong`, or it has returned. -/
inductive Device
  | waiting (since : Nat)
  | busy
  | ended

/-- `heardAt` is the time at which the device has taken up its last frame, `lastGood` the time of
the last answer that counts, with the `heardAt` of then in `heardThen`, and `gaveUp` the time at
which the heartbeat has closed the session. The first three begin with the session. -/
structure State where
  now : Nat
  host : Beat
  closed : Bool
  streams : Nat
  toDevice : List (InFlight Request)
  fromDevice : List (InFlight Reply)
  device : Device
  heardAt : Nat
  lastGood : Nat
  heardThen : Nat
  gaveUp : Option Nat

def State.initial : State where
  now := 0
  host := .sleeping heartbeatInterval 0
  closed := false
  streams := 0
  toDevice := []
  fromDevice := []
  device := .waiting 0
  heardAt := 0
  lastGood := 0
  heardThen := 0
  gaveUp := none

/-- After a ping that has failed or timed out. -/
def State.missed (s : State) (misses : Nat) : State :=
  if heartbeatMaxMisses ≤ misses + 1 then
    { s with host := .ended, closed := true, gaveUp := some s.now }
  else { s with host := .sleeping (s.now + heartbeatInterval) (misses + 1) }

/-- The device takes up a frame. -/
def State.hear (s : State) (rest : List (InFlight Request)) (replies : List Reply) : State :=
  { s with
    toDevice := rest
    fromDevice := s.fromDevice ++ replies.map fun reply => ⟨s.now, reply⟩
    device := .busy
    heardAt := s.now }

/-- What time does, what the two do by themselves, and what goes wrong. -/
inductive Action
  | tick
  | proceed
  | fault
  deriving DecidableEq

inductive Step (slack : Nat) : State → Action → State → Prop
  | tick {s : State} (hhost : ∀ due, s.host.due = some due → s.now < due + slack)
      (hdevice : ∀ since, s.device = .waiting since →
        s.now < since + hostSilenceTimeout + slack) :
      Step slack s .tick { s with now := s.now + 1 }
  -- `device_heartbeat`
  | wakes {s : State} {wakesAt misses : Nat} (nonce : Bytes)
      (hhost : s.host = .sleeping wakesAt misses) (hdue : wakesAt ≤ s.now)
      (hopen : s.closed = false) :
      Step slack s .proceed { s with
        host := .pinging s.streams nonce (s.now + heartbeatTimeout) misses
        streams := s.streams + 1
        toDevice := s.toDevice ++ [⟨s.now, .ping s.streams nonce⟩] }
  | wakesClosed {s : State} {wakesAt misses : Nat} (hhost : s.host = .sleeping wakesAt misses)
      (hdue : wakesAt ≤ s.now) (hclosed : s.closed = true) :
      Step slack s .proceed { s with host := .ended }
  | openFails {s : State} {wakesAt misses : Nat} (hhost : s.host = .sleeping wakesAt misses)
      (hdue : wakesAt ≤ s.now) (hopen : s.closed = false) :
      Step slack s .fault (s.missed misses)
  | answered {s : State} {stream sentAt : Nat} {nonce : Bytes} {deadline misses : Nat}
      {rest : List (InFlight Reply)} (hhost : s.host = .pinging stream nonce deadline misses)
      (hframes : s.fromDevice = ⟨sentAt, .reply stream (some nonce)⟩ :: rest) :
      Step slack s .proceed { s with
        host := .sleeping (s.now + heartbeatInterval) 0, fromDevice := rest, lastGood := s.now
        heardThen := s.heardAt }
  | answeredBadly {s : State} {stream sentAt : Nat} {nonce : Bytes} {deadline misses : Nat}
      {pong : Option Bytes} {rest : List (InFlight Reply)}
      (hhost : s.host = .pinging stream nonce deadline misses)
      (hframes : s.fromDevice = ⟨sentAt, .reply stream pong⟩ :: rest) (hpong : pong ≠ some nonce)
      (hopen : s.closed = false) :
      Step slack s .proceed ({ s with fromDevice := rest }.missed misses)
  | pingFails {s : State} {stream : Nat} {nonce : Bytes} {deadline misses : Nat}
      (hhost : s.host = .pinging stream nonce deadline misses) (hopen : s.closed = false) :
      Step slack s .fault (s.missed misses)
  | pingClosed {s : State} {stream : Nat} {nonce : Bytes} {deadline misses : Nat}
      (hhost : s.host = .pinging stream nonce deadline misses) (hclosed : s.closed = true) :
      Step slack s .proceed { s with host := .ended }
  | timesOut {s : State} {stream : Nat} {nonce : Bytes} {deadline misses : Nat}
      (hhost : s.host = .pinging stream nonce deadline misses) (hdue : deadline ≤ s.now) :
      Step slack s .proceed (s.missed misses)
  -- the rest of the server: a frame for no open stream is dropped
  | drops {s : State} {frame : InFlight Reply} {rest : List (InFlight Reply)}
      (hframes : s.fromDevice = frame :: rest)
      (hother : ∀ stream nonce deadline misses pong,
        s.host = .pinging stream nonce deadline misses → frame.frame ≠ .reply stream pong) :
      Step slack s .proceed { s with fromDevice := rest }
  | sends {s : State} :
      Step slack s .proceed { s with toDevice := s.toDevice ++ [⟨s.now, .other⟩] }
  | disconnects {s : State} : Step slack s .fault { s with closed := true }
  -- the device
  | pongs {s : State} {since sentAt stream : Nat} {nonce : Bytes}
      {rest : List (InFlight Request)} (hwaiting : s.device = .waiting since)
      (hframes : s.toDevice = ⟨sentAt, .ping stream nonce⟩ :: rest) :
      Step slack s .proceed (s.hear rest [.reply stream (some nonce)])
  | refuses {s : State} {since sentAt stream : Nat} {nonce : Bytes}
      {rest : List (InFlight Request)} (hwaiting : s.device = .waiting since)
      (hframes : s.toDevice = ⟨sentAt, .ping stream nonce⟩ :: rest) (replies : List Reply)
      (hreplies : ∀ reply ∈ replies, reply = .reply stream none) :
      Step slack s .fault (s.hear rest replies)
  | hears {s : State} {since sentAt : Nat} {rest : List (InFlight Request)}
      (hwaiting : s.device = .waiting since) (hframes : s.toDevice = ⟨sentAt, .other⟩ :: rest) :
      Step slack s .proceed (s.hear rest [])
  | resumes {s : State} (hbusy : s.device = .busy) :
      Step slack s .proceed { s with device := .waiting s.now }
  | deviceSends {s : State} :
      Step slack s .proceed { s with fromDevice := s.fromDevice ++ [⟨s.now, .other⟩] }
  | deviceSilent {s : State} {since : Nat} (hwaiting : s.device = .waiting since)
      (hdue : since + hostSilenceTimeout ≤ s.now) :
      Step slack s .proceed { s with device := .ended }
  | deviceFails {s : State} : Step slack s .fault { s with device := .ended }

def system (slack : Nat) : System State Action where
  init s := s = .initial
  step := Step slack

/-! The timers. -/

/-- The longest that one ping and the sleep before it may take. -/
def roundTime (slack : Nat) : Nat := heartbeatInterval + heartbeatTimeout + 2 * slack

/-- The timer of the heartbeat is not overdue, and no further from the last answer than its misses
account for. -/
def Beat.OnTime (slack now lastGood : Nat) : Beat → Prop
  | .sleeping wakesAt misses =>
      misses < heartbeatMaxMisses ∧ now ≤ wakesAt + slack ∧
        wakesAt ≤ lastGood + misses * roundTime slack + heartbeatInterval ∧
        lastGood + (misses + 1) * heartbeatInterval ≤ wakesAt
  | .pinging _ _ deadline misses =>
      misses < heartbeatMaxMisses ∧ now ≤ deadline + slack ∧ deadline ≤ now + heartbeatTimeout ∧
        deadline + slack ≤ lastGood + (misses + 1) * roundTime slack ∧
        lastGood + (misses + 1) * heartbeatInterval + heartbeatTimeout ≤ deadline
  | .ended => True

structure Beats (slack : Nat) (s : State) : Prop where
  onTime : s.host.OnTime slack s.now s.lastGood
  past : s.lastGood ≤ s.now
  ended : s.host = .ended → s.closed = true
  gaveUp : ∀ time, s.gaveUp = some time → s.host = .ended ∧
    s.lastGood + heartbeatMaxMisses * heartbeatInterval ≤ time

section Timers

variable {slack : Nat} {s t : State} {a : Action}

theorem Beats.congr (h : Beats slack s) (hnow : t.now = s.now) (hhost : t.host = s.host)
    (hclosed : s.closed = true → t.closed = true) (hgood : t.lastGood = s.lastGood)
    (hgave : t.gaveUp = s.gaveUp) : Beats slack t := by
  obtain ⟨honTime, hpast, hended, hgaveUp⟩ := h
  constructor
  · rw [hnow, hhost, hgood]
    exact honTime
  · rw [hnow, hgood]
    exact hpast
  · rw [hhost]
    exact fun hover => hclosed (hended hover)
  · rw [hhost, hgood, hgave]
    exact hgaveUp

theorem Beats.missed {misses : Nat} (h : Beats slack s) (hbusy : s.host ≠ .ended)
    (hmisses : misses < heartbeatMaxMisses)
    (hlate : s.now ≤ s.lastGood + (misses + 1) * roundTime slack)
    (hearly : s.lastGood + (misses + 1) * heartbeatInterval ≤ s.now) :
    Beats slack (s.missed misses) := by
  unfold State.missed
  split
  · rename_i hmax
    have hlast : misses + 1 = heartbeatMaxMisses := Nat.le_antisymm hmisses hmax
    refine ⟨trivial, h.past, fun _ => rfl, ?_⟩
    rintro time ⟨⟩
    exact ⟨rfl, hlast ▸ hearly⟩
  · rename_i hmax
    refine ⟨⟨Nat.lt_of_not_le hmax, ?_, Nat.add_le_add_right hlate _, ?_⟩, h.past, nofun, ?_⟩
    · exact (Nat.le_add_right _ _).trans (Nat.le_add_right _ _)
    · rw [Nat.succ_mul, ← Nat.add_assoc]
      exact Nat.add_le_add_right hearly _
    · exact fun time hgave => absurd (h.gaveUp time hgave).1 hbusy

theorem Beats.misses {stream : Nat} {nonce : Bytes} {deadline misses : Nat} (h : Beats slack s)
    (hhost : s.host = .pinging stream nonce deadline misses) : Beats slack (s.missed misses) := by
  have honTime := h.onTime
  rw [hhost] at honTime
  obtain ⟨hmisses, hlate, hfar, hround, hearly⟩ := honTime
  exact h.missed (by rw [hhost]; nofun) hmisses (hlate.trans hround) (by omega)

theorem Beats.step (h : Beats slack s) (hstep : Step slack s a t) : Beats slack t := by
  have honTime := h.onTime
  cases hstep with
  | tick hhost _ =>
      refine ⟨?_, h.past.trans (Nat.le_succ _), h.ended, h.gaveUp⟩
      cases hbeat : s.host with
      | sleeping wakesAt misses =>
          have hdue := hhost wakesAt (by rw [hbeat, Beat.due])
          rw [hbeat] at honTime
          exact ⟨honTime.1, hdue, honTime.2.2⟩
      | pinging stream nonce deadline misses =>
          have hdue := hhost deadline (by rw [hbeat, Beat.due])
          rw [hbeat] at honTime
          obtain ⟨hmisses, -, hfar, hrest⟩ := honTime
          exact ⟨hmisses, hdue, hfar.trans (Nat.add_le_add_right (Nat.le_succ _) _), hrest⟩
      | ended => trivial
  | wakes nonce hhost hdue _ =>
      rw [hhost] at honTime
      obtain ⟨hmisses, hlate, hfar, hearly⟩ := honTime
      refine ⟨⟨hmisses, ?_, le_refl _, ?_, ?_⟩, h.past, nofun, fun time hgave => ?_⟩
      · exact (Nat.le_add_right _ _).trans (Nat.le_add_right _ _)
      · rw [Nat.succ_mul]
        simp only [roundTime] at hfar ⊢
        omega
      · exact Nat.add_le_add_right (hearly.trans hdue) _
      · have hover := (h.gaveUp time hgave).1
        rw [hhost] at hover
        cases hover
  | wakesClosed hhost _ hclosed | pingClosed hhost hclosed =>
      refine ⟨trivial, h.past, fun _ => hclosed, fun time hgave => ⟨rfl, (h.gaveUp time hgave).2⟩⟩
  | openFails hhost hdue _ =>
      rw [hhost] at honTime
      obtain ⟨hmisses, hlate, hfar, hearly⟩ := honTime
      refine h.missed (by rw [hhost]; nofun) hmisses ?_ (hearly.trans hdue)
      rw [Nat.succ_mul]
      simp only [roundTime] at hfar ⊢
      omega
  | answered hhost hframes =>
      refine ⟨⟨by decide, ?_, by rw [Nat.zero_mul]; exact le_refl _, ?_⟩, le_refl _, nofun,
        fun time hgave => ?_⟩
      · exact (Nat.le_add_right _ _).trans (Nat.le_add_right _ _)
      · rw [Nat.zero_add, Nat.one_mul]
      · have hover := (h.gaveUp time hgave).1
        rw [hhost] at hover
        cases hover
  | @answeredBadly stream sentAt nonce deadline misses pong rest hhost hframes _ _ =>
      have hafter : Beats slack { s with fromDevice := rest } := h.congr rfl rfl id rfl rfl
      exact hafter.misses hhost
  | pingFails hhost _ | timesOut hhost _ => exact h.misses hhost
  | drops | sends | pongs | refuses | hears | resumes | deviceSends | deviceSilent
  | deviceFails => exact h.congr rfl rfl id rfl rfl
  | disconnects => exact h.congr rfl rfl (fun _ => rfl) rfl rfl

end Timers

/-! The link. -/

/-- What an answer tells: the device has heard the ping it answers, and after it was sent. -/
structure Linked (slack : Nat) (s : State) : Prop where
  past : s.heardAt ≤ s.now
  waits : ∀ since, s.device = .waiting since →
    s.heardAt ≤ since ∧ s.now ≤ since + hostSilenceTimeout + slack
  asked : ∀ sentAt stream nonce, ⟨sentAt, .ping stream nonce⟩ ∈ s.toDevice → stream < s.streams
  made : ∀ sentAt stream pong, ⟨sentAt, .reply stream pong⟩ ∈ s.fromDevice →
    stream < s.streams ∧ sentAt ≤ s.heardAt
  proves : ∀ stream nonce deadline misses, s.host = .pinging stream nonce deadline misses →
    ∀ sentAt pong, ⟨sentAt, .reply stream pong⟩ ∈ s.fromDevice →
      deadline ≤ sentAt + heartbeatTimeout
  before : s.heardThen ≤ s.lastGood ∧ s.heardThen ≤ s.heardAt
  fresh : s.lastGood ≤ s.heardThen + heartbeatTimeout + slack

section Link

variable {slack : Nat} {s t : State} {a : Action}

theorem Linked.congr (h : Linked slack s) (hnow : t.now = s.now) (hheard : t.heardAt = s.heardAt)
    (hdevice : ∀ since, t.device = .waiting since → s.device = .waiting since)
    (hstreams : t.streams = s.streams)
    (hto : ∀ sentAt stream nonce, ⟨sentAt, .ping stream nonce⟩ ∈ t.toDevice →
      ⟨sentAt, .ping stream nonce⟩ ∈ s.toDevice)
    (hfrom : ∀ sentAt stream pong, ⟨sentAt, .reply stream pong⟩ ∈ t.fromDevice →
      ⟨sentAt, .reply stream pong⟩ ∈ s.fromDevice)
    (hhost : ∀ stream nonce deadline misses, t.host = .pinging stream nonce deadline misses →
      s.host = .pinging stream nonce deadline misses)
    (hgood : t.lastGood = s.lastGood) (hthen : t.heardThen = s.heardThen) : Linked slack t where
  past := by
    rw [hheard, hnow]
    exact h.past
  waits since hwaiting := by
    rw [hheard, hnow]
    exact h.waits since (hdevice since hwaiting)
  asked sentAt stream nonce hmem := hstreams ▸ h.asked sentAt stream nonce (hto _ _ _ hmem)
  made sentAt stream pong hmem := by
    rw [hstreams, hheard]
    exact h.made sentAt stream pong (hfrom _ _ _ hmem)
  proves stream nonce deadline misses hpinging sentAt pong hmem :=
    h.proves _ _ _ _ (hhost _ _ _ _ hpinging) sentAt pong (hfrom _ _ _ hmem)
  before := by
    rw [hgood, hthen, hheard]
    exact h.before
  fresh := by
    rw [hgood, hthen]
    exact h.fresh

theorem Linked.missed {misses : Nat} (h : Linked slack s) : Linked slack (s.missed misses) := by
  unfold State.missed
  split
  · exact h.congr rfl rfl (fun _ => id) rfl (fun _ _ _ => id) (fun _ _ _ => id) nofun rfl rfl
  · exact h.congr rfl rfl (fun _ => id) rfl (fun _ _ _ => id) (fun _ _ _ => id) nofun rfl rfl

theorem Linked.hear {rest : List (InFlight Request)} {replies : List Reply} (h : Linked slack s)
    (hbeats : Beats slack s) (hrest : ∀ frame ∈ rest, frame ∈ s.toDevice)
    (hreplies : ∀ stream pong, .reply stream pong ∈ replies → stream < s.streams) :
    Linked slack (s.hear rest replies) where
  past := le_refl _
  waits := nofun
  asked sentAt stream nonce hmem := h.asked sentAt stream nonce (hrest _ hmem)
  made sentAt stream pong hmem := by
    rcases List.mem_append.mp hmem with hold | hnew
    · exact (h.made sentAt stream pong hold).imp_right (·.trans h.past)
    · obtain ⟨reply, hreply, heq⟩ := List.mem_map.mp hnew
      cases heq
      exact ⟨hreplies stream pong hreply, le_refl _⟩
  proves stream nonce deadline misses hpinging sentAt pong hmem := by
    rcases List.mem_append.mp hmem with hold | hnew
    · exact h.proves stream nonce deadline misses hpinging sentAt pong hold
    · obtain ⟨reply, hreply, heq⟩ := List.mem_map.mp hnew
      cases heq
      have honTime := hbeats.onTime
      have hhost : s.host = .pinging stream nonce deadline misses := hpinging
      rw [hhost] at honTime
      exact honTime.2.2.1
  before := ⟨h.before.1, h.before.2.trans h.past⟩
  fresh := h.fresh

theorem Linked.step (h : Linked slack s) (hbeats : Beats slack s) (hstep : Step slack s a t) :
    Linked slack t := by
  cases hstep with
  | tick _ hdevice =>
      refine ⟨h.past.trans (Nat.le_succ _), fun since hwaiting => ?_, h.asked, h.made, h.proves,
        h.before, h.fresh⟩
      exact ⟨(h.waits since hwaiting).1, hdevice since hwaiting⟩
  | wakes nonce hhost _ _ =>
      refine ⟨h.past, h.waits, fun sentAt stream other hmem => ?_,
        fun sentAt stream pong hmem => ?_,
        fun stream other deadline misses hpinging sentAt pong hmem => ?_, h.before, h.fresh⟩
      · rcases List.mem_append.mp hmem with hold | hnew
        · exact Nat.lt_succ_of_lt (h.asked sentAt stream other hold)
        · cases List.mem_singleton.mp hnew
          exact Nat.lt_succ_self _
      · exact (h.made sentAt stream pong hmem).imp_left Nat.lt_succ_of_lt
      · cases hpinging
        exact absurd (h.made sentAt _ pong hmem).1 (Nat.lt_irrefl _)
  | wakesClosed | pingClosed =>
      exact h.congr rfl rfl (fun _ => id) rfl (fun _ _ _ => id) (fun _ _ _ => id) nofun rfl rfl
  | openFails | pingFails | timesOut => exact h.missed
  | @answered stream sentAt nonce deadline misses rest hhost hframes =>
      have hmem : ⟨sentAt, .reply stream (some nonce)⟩ ∈ s.fromDevice :=
        hframes ▸ List.mem_cons_self
      have hrest (sentAt : Nat) (stream : Nat) (pong : Option Bytes)
          (hmem : ⟨sentAt, .reply stream pong⟩ ∈ rest) :
          ⟨sentAt, .reply stream pong⟩ ∈ s.fromDevice := hframes ▸ List.mem_cons_of_mem _ hmem
      have hproves := h.proves _ _ _ _ hhost sentAt _ hmem
      have hmade := (h.made sentAt stream _ hmem).2
      have honTime := hbeats.onTime
      rw [hhost] at honTime
      have hlate := honTime.2.1
      refine ⟨h.past, h.waits, h.asked, fun _ _ _ hother => h.made _ _ _ (hrest _ _ _ hother),
        nofun, ⟨h.past, le_refl _⟩, ?_⟩
      exact hlate.trans (Nat.add_le_add_right
        (hproves.trans (Nat.add_le_add_right hmade _)) _)
  | @answeredBadly stream sentAt nonce deadline misses pong rest hhost hframes _ _ =>
      refine Linked.missed (s := { s with fromDevice := rest }) ?_
      exact h.congr rfl rfl (fun _ => id) rfl (fun _ _ _ => id)
        (fun _ _ _ hmem => hframes ▸ List.mem_cons_of_mem _ hmem) (fun _ _ _ _ => id) rfl rfl
  | drops hframes _ =>
      exact h.congr rfl rfl (fun _ => id) rfl (fun _ _ _ => id)
        (fun _ _ _ hmem => hframes ▸ List.mem_cons_of_mem _ hmem) (fun _ _ _ _ => id) rfl rfl
  | sends =>
      refine h.congr rfl rfl (fun _ => id) rfl (fun _ _ _ hmem => ?_) (fun _ _ _ => id)
        (fun _ _ _ _ => id) rfl rfl
      simpa using hmem
  | disconnects =>
      exact h.congr rfl rfl (fun _ => id) rfl (fun _ _ _ => id) (fun _ _ _ => id)
        (fun _ _ _ _ => id) rfl rfl
  | @pongs since sentAt stream nonce rest _ hframes =>
      refine h.hear hbeats (fun frame hmem => hframes ▸ List.mem_cons_of_mem _ hmem) ?_
      intro other pong hmem
      cases List.mem_singleton.mp hmem
      exact h.asked sentAt stream nonce (hframes ▸ List.mem_cons_self)
  | @refuses since sentAt stream nonce rest _ hframes replies hreplies =>
      refine h.hear hbeats (fun frame hmem => hframes ▸ List.mem_cons_of_mem _ hmem) ?_
      intro other pong hmem
      cases hreplies _ hmem
      exact h.asked sentAt stream nonce (hframes ▸ List.mem_cons_self)
  | hears _ hframes =>
      exact h.hear hbeats (fun frame hmem => hframes ▸ List.mem_cons_of_mem _ hmem) nofun
  | resumes =>
      refine ⟨h.past, ?_, h.asked, h.made, h.proves, h.before, h.fresh⟩
      rintro since ⟨⟩
      exact ⟨h.past, (Nat.le_add_right _ _).trans (Nat.le_add_right _ _)⟩
  | deviceSends =>
      refine h.congr rfl rfl (fun _ => id) rfl (fun _ _ _ => id) (fun _ _ _ hmem => ?_)
        (fun _ _ _ _ => id) rfl rfl
      simpa using hmem
  | deviceSilent | deviceFails =>
      exact h.congr rfl rfl nofun rfl (fun _ _ _ => id) (fun _ _ _ => id) (fun _ _ _ _ => id) rfl
        rfl

theorem beats (h : (system slack).Reachable s) : Beats slack s := by
  refine h.invariant ?_ fun s a t hs hstep => hs.step hstep
  rintro s rfl
  exact ⟨⟨by decide, Nat.zero_le _, by simp [State.initial], by simp [State.initial]⟩, le_refl _,
    nofun, nofun⟩

theorem linked (h : (system slack).Reachable s) : Linked slack s := by
  refine h.invariant_of (P := Beats slack) (fun s => beats) ?_
    fun s a t hbeats hs hstep => hs.step hbeats hstep
  rintro s rfl
  refine ⟨le_refl _, ?_, nofun, nofun, nofun, ⟨le_refl _, le_refl _⟩, Nat.zero_le _⟩
  rintro since ⟨⟩
  exact ⟨le_refl _, Nat.zero_le _⟩

end Link

/-! A link without faults. -/

/-- Nothing fails, and no frame is on its way for longer than `delay`. -/
def Calm (delay : Nat) (s : State) (a : Action) : Prop :=
  a ≠ .fault ∧ (a = .tick →
    (∀ frame ∈ s.toDevice, s.now < frame.sentAt + delay) ∧
      ∀ frame ∈ s.fromDevice, s.now < frame.sentAt + delay)

def InFlight.isPing (frame : InFlight Request) : Bool :=
  match frame.frame with
  | .ping _ _ => true
  | .other => false

def InFlight.isReply (frame : InFlight Reply) : Bool :=
  match frame.frame with
  | .reply _ _ => true
  | .other => false

/-- The server sleeps with nothing of it on the link, or its one ping is on the way to the device,
or the answer is on the way back. -/
inductive Turn (slack delay : Nat) (s : State) : Prop
  | resting {wakesAt : Nat} (hhost : s.host = .sleeping wakesAt 0)
      (hpings : s.toDevice.filter InFlight.isPing = [])
      (hreplies : s.fromDevice.filter InFlight.isReply = [])
      (hdue : wakesAt = s.lastGood + heartbeatInterval) (hlate : s.now ≤ wakesAt + slack)
      (hheard : s.lastGood ≤ s.heardAt + delay)
  | asking {stream sentAt : Nat} {nonce : Bytes}
      (hhost : s.host = .pinging stream nonce (sentAt + heartbeatTimeout) 0)
      (hpings : s.toDevice.filter InFlight.isPing = [⟨sentAt, .ping stream nonce⟩])
      (hreplies : s.fromDevice.filter InFlight.isReply = [])
      (hsent : sentAt ≤ s.lastGood + heartbeatInterval + slack)
      (hheard : s.lastGood ≤ s.heardAt + delay)
  | answering {stream sentAt madeAt : Nat} {nonce : Bytes}
      (hhost : s.host = .pinging stream nonce (sentAt + heartbeatTimeout) 0)
      (hpings : s.toDevice.filter InFlight.isPing = [])
      (hreplies : s.fromDevice.filter InFlight.isReply = [⟨madeAt, .reply stream (some nonce)⟩])
      (hsent : sentAt ≤ s.lastGood + heartbeatInterval + slack)
      (hmade : madeAt ≤ sentAt + delay) (hheard : madeAt ≤ s.heardAt)

structure Healthy (slack delay : Nat) (s : State) : Prop where
  turn : Turn slack delay s
  isOpen : s.closed = false
  listening : s.device ≠ .ended
  waits : ∀ since, s.device = .waiting since → s.heardAt ≤ since
  up : ∀ frame ∈ s.toDevice, s.now ≤ frame.sentAt + delay
  down : ∀ frame ∈ s.fromDevice, s.now ≤ frame.sentAt + delay
  past : s.heardAt ≤ s.now

section Health

variable {slack delay : Nat} {s t : State} {a : Action}

theorem Turn.congr (h : Turn slack delay s) (hnow : t.now = s.now) (hhost : t.host = s.host)
    (hpings : t.toDevice.filter InFlight.isPing = s.toDevice.filter InFlight.isPing)
    (hreplies : t.fromDevice.filter InFlight.isReply = s.fromDevice.filter InFlight.isReply)
    (hgood : t.lastGood = s.lastGood) (hheard : s.heardAt ≤ t.heardAt) : Turn slack delay t := by
  cases h with
  | resting hs hpings' hreplies' hdue hlate hpast =>
      refine .resting (hhost.trans hs) (hpings.trans hpings') (hreplies.trans hreplies')
        (hgood ▸ hdue) (hnow ▸ hlate) ?_
      rw [hgood]
      exact hpast.trans (Nat.add_le_add_right hheard _)
  | asking hs hpings' hreplies' hsent hpast =>
      refine .asking (hhost.trans hs) (hpings.trans hpings') (hreplies.trans hreplies')
        (hgood ▸ hsent) ?_
      rw [hgood]
      exact hpast.trans (Nat.add_le_add_right hheard _)
  | answering hs hpings' hreplies' hsent hmade hpast =>
      exact .answering (hhost.trans hs) (hpings.trans hpings') (hreplies.trans hreplies')
        (hgood ▸ hsent) hmade (hpast.trans hheard)

/-- How long ago the last answer was, and the last frame that the device has heard. -/
theorem Healthy.recent (h : Healthy slack delay s) :
    s.now ≤ s.lastGood + heartbeatInterval + slack + 2 * delay ∧
      s.now ≤ s.heardAt + heartbeatInterval + slack + 2 * delay := by
  cases h.turn with
  | resting hhost _ _ hdue hlate hheard => omega
  | asking hhost hpings _ hsent hheard =>
      have hup := h.up _ (List.mem_of_mem_filter (hpings ▸ List.mem_singleton_self _))
      simp only at hup
      omega
  | answering hhost _ hreplies hsent hmade hheard =>
      have hdown := h.down _ (List.mem_of_mem_filter (hreplies ▸ List.mem_singleton_self _))
      simp only at hdown
      omega

theorem Healthy.not_late (h : Healthy slack delay s) (hdelay : 2 * delay < heartbeatTimeout)
    {stream deadline misses : Nat} {nonce : Bytes}
    (hhost : s.host = .pinging stream nonce deadline misses) : s.now < deadline := by
  cases h.turn with
  | resting hother _ _ _ _ _ =>
      rw [hhost] at hother
      cases hother
  | asking hother hpings _ _ _ =>
      have hup := h.up _ (List.mem_of_mem_filter (hpings ▸ List.mem_singleton_self _))
      rw [hhost] at hother
      cases hother
      simp only at hup
      omega
  | answering hother _ hreplies _ hmade _ =>
      have hdown := h.down _ (List.mem_of_mem_filter (hreplies ▸ List.mem_singleton_self _))
      rw [hhost] at hother
      cases hother
      simp only at hdown
      omega

theorem Healthy.tick (h : Healthy slack delay s)
    (hhost : ∀ due, s.host.due = some due → s.now < due + slack)
    (hup : ∀ frame ∈ s.toDevice, s.now < frame.sentAt + delay)
    (hdown : ∀ frame ∈ s.fromDevice, s.now < frame.sentAt + delay) :
    Healthy slack delay { s with now := s.now + 1 } where
  turn := by
    cases h.turn with
    | resting hs hpings hreplies hdue hlate hheard =>
        exact .resting hs hpings hreplies hdue (hhost _ (by rw [hs, Beat.due])) hheard
    | asking hs hpings hreplies hsent hheard => exact .asking hs hpings hreplies hsent hheard
    | answering hs hpings hreplies hsent hmade hheard =>
        exact .answering hs hpings hreplies hsent hmade hheard
  isOpen := h.isOpen
  listening := h.listening
  waits := h.waits
  up := hup
  down := hdown
  past := h.past.trans (Nat.le_succ _)

theorem Healthy.wakes {wakesAt misses : Nat} (nonce : Bytes) (h : Healthy slack delay s)
    (hhost : s.host = .sleeping wakesAt misses) :
    Healthy slack delay { s with
      host := .pinging s.streams nonce (s.now + heartbeatTimeout) misses
      streams := s.streams + 1
      toDevice := s.toDevice ++ [⟨s.now, .ping s.streams nonce⟩] } where
  turn := by
    cases h.turn with
    | resting hs hpings hreplies hdue hlate hheard =>
        rw [hhost] at hs
        cases hs
        refine .asking rfl ?_ hreplies (hdue ▸ hlate) hheard
        rw [List.filter_append, hpings]
        rfl
    | asking hs _ _ _ _ | answering hs _ _ _ _ _ =>
        rw [hhost] at hs
        cases hs
  isOpen := h.isOpen
  listening := h.listening
  waits := h.waits
  up := List.forall_mem_append.mpr
    ⟨h.up, List.forall_mem_singleton.mpr (Nat.le_add_right s.now delay)⟩
  down := h.down
  past := h.past

theorem Healthy.hear {frame : InFlight Request} {rest : List (InFlight Request)}
    {replies : List Reply} (h : Healthy slack delay s) (hframes : s.toDevice = frame :: rest)
    (hturn : Turn slack delay (s.hear rest replies)) :
    Healthy slack delay (s.hear rest replies) where
  turn := hturn
  isOpen := h.isOpen
  listening := nofun
  waits := nofun
  up other hother := h.up other (hframes ▸ List.mem_cons_of_mem _ hother)
  down := by
    refine List.forall_mem_append.mpr ⟨h.down, List.forall_mem_map.mpr fun reply _ => ?_⟩
    exact Nat.le_add_right s.now delay
  past := le_refl _

theorem Turn.pongs {stream sentAt : Nat} {nonce : Bytes} {rest : List (InFlight Request)}
    (h : Turn slack delay s) (hup : s.now ≤ sentAt + delay)
    (hframes : s.toDevice = ⟨sentAt, .ping stream nonce⟩ :: rest) :
    Turn slack delay (s.hear rest [.reply stream (some nonce)]) := by
  have hfirst : s.toDevice.filter InFlight.isPing =
      ⟨sentAt, .ping stream nonce⟩ :: rest.filter InFlight.isPing := by
    rw [hframes]
    rfl
  cases h with
  | resting _ hpings _ _ _ _ | answering _ hpings _ _ _ _ =>
      rw [hpings] at hfirst
      cases hfirst
  | asking hhost hpings hreplies hsent hheard =>
      rw [hpings, List.cons.injEq] at hfirst
      obtain ⟨hping, hrest⟩ := hfirst
      cases hping
      refine .answering hhost hrest.symm ?_ hsent hup (le_refl s.now)
      rw [State.hear, List.filter_append, hreplies]
      rfl

theorem Healthy.drops {frame : InFlight Reply} {rest : List (InFlight Reply)}
    (h : Healthy slack delay s) (hframes : s.fromDevice = frame :: rest)
    (hother : frame.isReply = false) : Healthy slack delay { s with fromDevice := rest } where
  turn := by
    refine h.turn.congr rfl rfl rfl ?_ rfl (le_refl _)
    rw [hframes, List.filter_cons_of_neg (by simp [hother])]
  isOpen := h.isOpen
  listening := h.listening
  waits := h.waits
  up := h.up
  down other hmem := h.down other (hframes ▸ List.mem_cons_of_mem _ hmem)
  past := h.past

/-- The first frame with an answer to a ping is the one to the ping of the server. -/
theorem Turn.reply {stream sentAt : Nat} {pong : Option Bytes} {rest : List (InFlight Reply)}
    (h : Turn slack delay s) (hframes : s.fromDevice = ⟨sentAt, .reply stream pong⟩ :: rest) :
    ∃ nonce deadline, s.host = .pinging stream nonce deadline 0 ∧ pong = some nonce ∧
      s.toDevice.filter InFlight.isPing = [] ∧ rest.filter InFlight.isReply = [] ∧
      sentAt ≤ s.heardAt := by
  have hfirst : s.fromDevice.filter InFlight.isReply =
      ⟨sentAt, .reply stream pong⟩ :: rest.filter InFlight.isReply := by
    rw [hframes]
    rfl
  cases h with
  | resting _ _ hreplies _ _ _ | asking _ _ hreplies _ _ =>
      rw [hreplies] at hfirst
      cases hfirst
  | answering hhost hpings hreplies _ _ hheard =>
      rw [hreplies, List.cons.injEq] at hfirst
      obtain ⟨hreply, hrest⟩ := hfirst
      cases hreply
      exact ⟨_, _, hhost, rfl, hpings, hrest.symm, hheard⟩

theorem Healthy.step (h : Healthy slack delay s) (hdelay : 2 * delay < heartbeatTimeout)
    (hsilence : heartbeatInterval + slack + 2 * delay < hostSilenceTimeout)
    (hcalm : Calm delay s a) (hstep : Step slack s a t) : Healthy slack delay t := by
  cases hstep with
  | tick hhost _ =>
      obtain ⟨hup, hdown⟩ := hcalm.2 rfl
      exact h.tick hhost hup hdown
  | wakes nonce hhost _ _ => exact h.wakes nonce hhost
  | wakesClosed _ _ hclosed | pingClosed _ hclosed =>
      rw [h.isOpen] at hclosed
      cases hclosed
  | openFails | pingFails | disconnects | refuses | deviceFails => exact absurd rfl hcalm.1
  | @answered stream sentAt nonce deadline misses rest hhost hframes =>
      obtain ⟨_, _, _, _, hpings, hrest, hheard⟩ := h.turn.reply hframes
      have hdown := h.down ⟨sentAt, _⟩ (hframes ▸ List.mem_cons_self)
      refine ⟨.resting rfl hpings hrest rfl ?_ (hdown.trans (Nat.add_le_add_right hheard _)),
        h.isOpen, h.listening, h.waits, h.up, fun other hmem => ?_, h.past⟩
      · exact (Nat.le_add_right _ _).trans (Nat.le_add_right _ _)
      · exact h.down other (hframes ▸ List.mem_cons_of_mem _ hmem)
  | answeredBadly hhost hframes hpong _ =>
      obtain ⟨nonce, deadline, hother, hgood, -⟩ := h.turn.reply hframes
      rw [hhost] at hother
      cases hother
      exact absurd hgood hpong
  | timesOut hhost hdue => exact absurd hdue (Nat.not_le_of_lt (h.not_late hdelay hhost))
  | @drops frame rest hframes hother =>
      refine h.drops hframes ?_
      obtain ⟨sentAt, frame⟩ := frame
      cases frame with
      | reply stream pong =>
          obtain ⟨nonce, deadline, hhost, -⟩ := h.turn.reply hframes
          exact absurd rfl (hother stream nonce deadline 0 pong hhost)
      | other => rfl
  | sends =>
      refine ⟨h.turn.congr rfl rfl ?_ rfl rfl (le_refl _), h.isOpen, h.listening, h.waits,
        List.forall_mem_append.mpr
          ⟨h.up, List.forall_mem_singleton.mpr (Nat.le_add_right s.now delay)⟩, h.down, h.past⟩
      rw [List.filter_append]
      exact List.append_nil _
  | @pongs since sentAt stream nonce rest _ hframes =>
      have hup := h.up ⟨sentAt, _⟩ (hframes ▸ List.mem_cons_self)
      exact h.hear hframes (h.turn.pongs hup hframes)
  | hears _ hframes =>
      refine h.hear hframes (h.turn.congr rfl rfl ?_ (by simp [State.hear]) rfl h.past)
      rw [hframes]
      rfl
  | deviceSends =>
      refine ⟨h.turn.congr rfl rfl rfl ?_ rfl (le_refl _), h.isOpen, h.listening, h.waits, h.up,
        List.forall_mem_append.mpr
          ⟨h.down, List.forall_mem_singleton.mpr (Nat.le_add_right s.now delay)⟩, h.past⟩
      rw [List.filter_append]
      exact List.append_nil _
  | resumes =>
      refine ⟨h.turn.congr rfl rfl rfl rfl rfl (le_refl _), h.isOpen, nofun, ?_, h.up, h.down,
        h.past⟩
      rintro since ⟨⟩
      exact h.past
  | @deviceSilent since hwaiting hdue =>
      have hrecent := h.recent.2
      have hsince := h.waits since hwaiting
      omega

theorem healthy_initial : Healthy slack delay State.initial where
  turn := .resting rfl rfl rfl rfl (Nat.zero_le _) (Nat.zero_le _)
  isOpen := rfl
  listening := nofun
  waits := by
    rintro since ⟨⟩
    exact le_refl _
  up := nofun
  down := nofun
  past := le_refl _

/-- On a link that needs less than half the timeout for a frame, and less for two than is left of
the device's patience after an interval, nobody gives up: along every run without other faults the
session stays open, the device goes on listening, no ping is missed, and an answer never lies
further back than the interval and the way of two frames. -/
theorem healthy_link_kept (hdelay : 2 * delay < heartbeatTimeout)
    (hsilence : heartbeatInterval + slack + 2 * delay < hostSilenceTimeout)
    {trace : List (State × Action)} (hrun : (system slack).Run .initial trace t)
    (hcalm : ∀ p ∈ trace, Calm delay p.1 p.2) :
    ∀ u ∈ System.visited trace t, u.closed = false ∧ u.device ≠ .ended ∧
      ((∃ wakesAt, u.host = .sleeping wakesAt 0) ∨
        ∃ stream nonce deadline, u.host = .pinging stream nonce deadline 0) ∧
      u.now ≤ u.lastGood + heartbeatInterval + slack + 2 * delay := by
  intro u hu
  have h : Healthy slack delay u :=
    hrun.visited_of_steps (Calm delay)
      (fun s a t hs hcalm hstep => hs.step hdelay hsilence hcalm hstep) healthy_initial hcalm u hu
  refine ⟨h.isOpen, h.listening, ?_, h.recent.1⟩
  cases h.turn with
  | resting hhost _ _ _ _ _ => exact .inl ⟨_, hhost⟩
  | asking hhost _ _ _ _ | answering hhost _ _ _ _ _ => exact .inr ⟨_, _, _, hhost⟩

theorem leadsWith_sleeping {n : Nat} (hn : n ≤ heartbeatInterval) :
    (system 0).LeadsWith (Calm 1) .initial { State.initial with now := n } := by
  induction n with
  | zero => exact .refl _
  | succ n ih =>
      have hstep : Step 0 { State.initial with now := n } .tick
          { State.initial with now := n + 1 } := by
        refine .tick ?_ ?_
        · rintro due ⟨⟩
          exact hn
        · rintro since ⟨⟩
          have hpatient : heartbeatInterval ≤ 0 + hostSilenceTimeout + 0 := by decide
          exact Nat.lt_of_lt_of_le hn hpatient
      exact (ih (Nat.le_of_succ_le hn)).trans
        (.head hstep ⟨nofun, fun _ => ⟨nofun, nofun⟩⟩ (.refl _))

theorem exists_answered : ∃ t, (system 0).LeadsWith (Calm 1) .initial t ∧ t.closed = false ∧
    t.device = .waiting heartbeatInterval ∧ t.lastGood = heartbeatInterval ∧
    t.heardThen = heartbeatInterval := by
  have hcalm (s : State) : Calm 1 s .proceed := ⟨nofun, nofun⟩
  exact ⟨_, (leadsWith_sleeping (le_refl _)).trans <|
    System.LeadsWith.head (.wakes [7] rfl (le_refl _) rfl) (hcalm _) <|
    System.LeadsWith.head (.pongs rfl rfl) (hcalm _) <|
    System.LeadsWith.head (.resumes rfl) (hcalm _) <|
    System.LeadsWith.head (.answered rfl rfl) (hcalm _) (.refl _), rfl, rfl, rfl, rfl⟩

theorem healthy_link_kept_answered :
    ∃ t, (system 0).LeadsWith (Calm 1) .initial t ∧ t.lastGood = heartbeatInterval ∧
      t.closed = false ∧ t.device ≠ .ended ∧
      t.now ≤ t.lastGood + heartbeatInterval + 0 + 2 * 1 := by
  obtain ⟨t, ⟨trace, hrun, hcalm⟩, -, -, hgood, -⟩ := exists_answered
  obtain ⟨hopen, hlistening, -, hrecent⟩ :=
    healthy_link_kept (by decide) (by decide) hrun hcalm t (by simp [System.visited])
  exact ⟨t, ⟨trace, hrun, hcalm⟩, hgood, hopen, hlistening, hrecent⟩

end Health

/-! A link with faults. -/

section Faults

variable {slack : Nat} {s : State}

/-- Whatever the link does: a session that the server keeps open has begun or has had an answer at
most three rounds ago, and its device has taken up a frame within the timeout before that answer;
a device that waits for a frame has not done so for longer than its own limit since it was done
with the last one; and the heartbeat gives a session up only when the last answer is three
intervals old. -/
theorem open_session_is_live (h : (system slack).Reachable s) :
    (s.closed = false →
        s.now ≤ s.lastGood + heartbeatMaxMisses * roundTime slack ∧
        s.heardThen ≤ s.lastGood ∧ s.lastGood ≤ s.heardThen + heartbeatTimeout + slack ∧
        s.now ≤ s.heardAt + heartbeatMaxMisses * roundTime slack + heartbeatTimeout + slack) ∧
      (∀ since, s.device = .waiting since →
        s.heardAt ≤ since ∧ s.now ≤ since + hostSilenceTimeout + slack) ∧
      ∀ time, s.gaveUp = some time →
        s.lastGood + heartbeatMaxMisses * heartbeatInterval ≤ time := by
  have hbeats := beats h
  have hlinked := linked h
  refine ⟨fun hopen => ?_, hlinked.waits, fun time hgave => (hbeats.gaveUp time hgave).2⟩
  have hgood : s.now ≤ s.lastGood + heartbeatMaxMisses * roundTime slack := by
    have honTime := hbeats.onTime
    cases hhost : s.host with
    | sleeping wakesAt misses =>
        rw [hhost] at honTime
        obtain ⟨hmisses, hlate, hfar, -⟩ := honTime
        have hrounds := Nat.mul_le_mul_right (roundTime slack) (Nat.succ_le_of_lt hmisses)
        rw [Nat.succ_mul] at hrounds
        simp only [roundTime] at hfar hrounds ⊢
        omega
    | pinging stream nonce deadline misses =>
        rw [hhost] at honTime
        obtain ⟨hmisses, hlate, -, hround, -⟩ := honTime
        have hrounds := Nat.mul_le_mul_right (roundTime slack) (Nat.succ_le_of_lt hmisses)
        exact (hlate.trans hround).trans (Nat.add_le_add_left hrounds _)
    | ended =>
        rw [hbeats.ended hhost] at hopen
        cases hopen
  have hfresh := hlinked.fresh
  obtain ⟨hthen, hsince⟩ := hlinked.before
  exact ⟨hgood, hthen, hfresh, by omega⟩

theorem open_session_is_live_answered : ∃ s, (system 0).Reachable s ∧ s.closed = false ∧
    s.lastGood = heartbeatInterval ∧ s.now ≤ s.lastGood + heartbeatMaxMisses * roundTime 0 ∧
    s.lastGood ≤ s.heardThen + heartbeatTimeout + 0 ∧
    s.now ≤ heartbeatInterval + hostSilenceTimeout + 0 := by
  obtain ⟨s, hrun, hopen, hwaiting, hgood, -⟩ := exists_answered
  have h : (system 0).Reachable s := ⟨.initial, rfl, hrun.leads⟩
  obtain ⟨hlive, hsilent, -⟩ := open_session_is_live h
  obtain ⟨hrecent, -, hfresh, -⟩ := hlive hopen
  exact ⟨s, h, hopen, hgood, hrecent, hfresh, (hsilent _ hwaiting).2⟩

end Faults

end SideWire.Heartbeat
