import SideWire.Base.OrderedChannel
import SideWire.Base.TransitionSystem
import SideWire.PtySession
import SideWire.TerminalInput

/-!
`handle_control_pty` on the server, between a client on the control socket and a stream to the
device, from where it has sent its `PtyOpen`. What the client and the device do is up to them.
-/

namespace SideWire.PtyRelay

open SideWire.ByteString
open SideWire.FrameCodec
open SideWire.OrderedChannel
open SideWire.PtySession (PtyResize isPtyRequest)
open SideWire.TerminalInput (eventItems frameItems inputLoop delivered relayed)
open SideWire.TransitionSystem

/-- The stream to the device, and `decode` for the process id in a `PtyOpenAck`. -/
structure Session where
  streamId : UInt32
  decodeAck : Bytes → Except String UInt32

/-- The `ControlResponse` of a request. -/
inductive Reply
  | ok (pid : UInt32)
  | error (payload : Bytes)
  deriving DecidableEq

/-- Why the handler returns an error: the texts of its `bail!`, and the calls under a `?`. -/
inductive Failure
  | ack (message : String)
  | unexpectedOpen (kind : FrameKind)
  | reply
  | unexpectedLocal (kind : FrameKind)
  | send
  | recv
  | unexpectedStream (stream : UInt32)
  | timeout

abbrev Result := Except Failure Unit

/-- Where the handler stands: in `recv` for the answer to its `PtyOpen`, in the write of its
own answer, in the `select!` over the two loops, or in the `timeout` over what is left. -/
inductive Phase
  | opening
  | replying (reply : Reply)
  | relaying
  | draining
  | returned (result : Result)

/-- Where `local_to_device` stands. -/
inductive LocalLoop
  | reading
  | sending (frame : Frame)
  | closing
  | ended (result : Result)

def LocalLoop.Running : LocalLoop → Prop
  | .ended _ => False
  | _ => True

def LocalLoop.hand : LocalLoop → List Frame
  | .sending frame => [frame]
  | _ => []

/-- Where `device_to_local` stands. -/
inductive DeviceLoop
  | receiving
  | writing (frame : Frame)
  | ended (result : Result)

def DeviceLoop.hand : DeviceLoop → List Frame
  | .writing frame => [frame]
  | _ => []

/-- `done` of a frame from the device. -/
def finishes (frame : Frame) : Bool := frame.kind == .ptyExit || frame.kind == .error

/-- `typed` comes from the client and `output` from the device, `upstream` and `shown` are what
was sent on to them, and `alive` is `local_alive`. -/
structure State where
  typed : Channel Frame
  upstream : List Frame
  output : Channel Frame
  shown : List Frame
  reply : Option Reply
  alive : Bool
  phase : Phase
  localLoop : LocalLoop
  deviceLoop : DeviceLoop

def State.initial : State where
  typed := .empty
  upstream := []
  output := .empty
  shown := []
  reply := none
  alive := true
  phase := .opening
  localLoop := .reading
  deviceLoop := .receiving

def restamp (session : Session) (frame : Frame) : Frame :=
  { frame with streamId := session.streamId }

def closeFrame (session : Session) : Frame := ⟨.ptyClose, session.streamId, []⟩

/-- A loop after a frame that may be its last. -/
def LocalLoop.after (frame : Frame) : LocalLoop :=
  if frame.kind = .ptyClose then .ended (.ok ()) else .reading

def DeviceLoop.after (frame : Frame) : DeviceLoop :=
  if finishes frame then .ended (.ok ()) else .receiving

def Phase.Draining : Phase → Prop
  | .relaying | .draining => True
  | _ => False

inductive Action
  | client (frame : Frame)
  | device (frame : Frame)
  | cuts
  | relay
  | fails

inductive Step (session : Session) : State → Action → State → Prop
  -- the client and the device
  | typed {s : State} (frame : Frame) :
      Step session s (.client frame) { s with typed := s.typed.put frame }
  | sent {s : State} (frame : Frame) :
      Step session s (.device frame) { s with output := s.output.put frame }
  | hangUp {s : State} {kept : List Frame} (hkept : kept <+: s.typed.queue) :
      Step session s .cuts { s with typed := s.typed.cut kept hkept }
  | cut {s : State} {kept : List Frame} (hkept : kept <+: s.output.queue) :
      Step session s .cuts { s with output := s.output.cut kept hkept }
  -- the answer to `PtyOpen`
  | opened {s : State} {frame : Frame} {rest : List Frame} {pid : UInt32}
      (hphase : s.phase = .opening) (hqueue : s.output.queue = frame :: rest)
      (hkind : frame.kind = .ptyOpenAck) (hdecode : session.decodeAck frame.payload = .ok pid) :
      Step session s .relay { s with
        output := s.output.take frame rest hqueue, phase := .replying (.ok pid) }
  | openedBad {s : State} {frame : Frame} {rest : List Frame} {message : String}
      (hphase : s.phase = .opening) (hqueue : s.output.queue = frame :: rest)
      (hkind : frame.kind = .ptyOpenAck)
      (hdecode : session.decodeAck frame.payload = .error message) :
      Step session s .relay { s with
        output := s.output.take frame rest hqueue, phase := .returned (.error (.ack message)) }
  | refused {s : State} {frame : Frame} {rest : List Frame} (hphase : s.phase = .opening)
      (hqueue : s.output.queue = frame :: rest) (hkind : frame.kind = .error) :
      Step session s .relay { s with
        output := s.output.take frame rest hqueue, phase := .replying (.error frame.payload) }
  | openedOther {s : State} {frame : Frame} {rest : List Frame} (hphase : s.phase = .opening)
      (hqueue : s.output.queue = frame :: rest)
      (hkind : frame.kind ≠ .ptyOpenAck ∧ frame.kind ≠ .error) :
      Step session s .relay { s with
        output := s.output.take frame rest hqueue
        phase := .returned (.error (.unexpectedOpen frame.kind)) }
  | openFails {s : State} (hphase : s.phase = .opening) (hcut : s.output.isCut = true) :
      Step session s .fails { s with phase := .returned (.error .recv) }
  | reply {s : State} {pid : UInt32} (hphase : s.phase = .replying (.ok pid)) :
      Step session s .relay { s with reply := some (.ok pid), phase := .relaying }
  | replyError {s : State} {payload : Bytes} (hphase : s.phase = .replying (.error payload)) :
      Step session s .relay { s with
        reply := some (.error payload), phase := .returned (.ok ()) }
  | replyFails {s : State} {answer : Reply} (hphase : s.phase = .replying answer) :
      Step session s .fails { s with phase := .returned (.error .reply) }
  -- `local_to_device`
  | read {s : State} {frame : Frame} {rest : List Frame} (hphase : s.phase = .relaying)
      (hloop : s.localLoop = .reading) (hqueue : s.typed.queue = frame :: rest)
      (hkind : isPtyRequest frame.kind = true) :
      Step session s .relay { s with
        typed := s.typed.take frame rest hqueue
        localLoop := .sending (restamp session frame) }
  | readOther {s : State} {frame : Frame} {rest : List Frame} (hphase : s.phase = .relaying)
      (hloop : s.localLoop = .reading) (hqueue : s.typed.queue = frame :: rest)
      (hkind : isPtyRequest frame.kind = false) :
      Step session s .relay { s with
        typed := s.typed.take frame rest hqueue
        localLoop := .ended (.error (.unexpectedLocal frame.kind)) }
  | readFails {s : State} (hphase : s.phase = .relaying) (hloop : s.localLoop = .reading)
      (hcut : s.typed.isCut = true) (hqueue : s.typed.queue = []) :
      Step session s .relay { s with localLoop := .closing }
  | send {s : State} {frame : Frame} (hphase : s.phase = .relaying)
      (hloop : s.localLoop = .sending frame) :
      Step session s .relay { s with
        upstream := s.upstream ++ [frame], localLoop := .after frame }
  | sendFails {s : State} {frame : Frame} (hphase : s.phase = .relaying)
      (hloop : s.localLoop = .sending frame) :
      Step session s .fails { s with localLoop := .ended (.error .send) }
  | close {s : State} (hphase : s.phase = .relaying) (hloop : s.localLoop = .closing) :
      Step session s .relay { s with
        upstream := s.upstream ++ [closeFrame session], localLoop := .ended (.ok ()) }
  | closeFails {s : State} (hphase : s.phase = .relaying) (hloop : s.localLoop = .closing) :
      Step session s .fails { s with localLoop := .ended (.ok ()) }
  -- `device_to_local`
  | recv {s : State} {frame : Frame} {rest : List Frame} (hphase : s.phase.Draining)
      (hloop : s.deviceLoop = .receiving) (hqueue : s.output.queue = frame :: rest)
      (hstream : frame.streamId = session.streamId) :
      Step session s .relay { s with
        output := s.output.take frame rest hqueue, deviceLoop := .writing frame }
  | recvOther {s : State} {frame : Frame} {rest : List Frame} (hphase : s.phase.Draining)
      (hloop : s.deviceLoop = .receiving) (hqueue : s.output.queue = frame :: rest)
      (hstream : frame.streamId ≠ session.streamId) :
      Step session s .relay { s with
        output := s.output.take frame rest hqueue
        deviceLoop := .ended (.error (.unexpectedStream frame.streamId)) }
  | recvFails {s : State} (hphase : s.phase.Draining) (hloop : s.deviceLoop = .receiving)
      (hcut : s.output.isCut = true) :
      Step session s .fails { s with deviceLoop := .ended (.error .recv) }
  | write {s : State} {frame : Frame} (hphase : s.phase.Draining)
      (hloop : s.deviceLoop = .writing frame) (halive : s.alive = true) :
      Step session s .relay { s with
        shown := s.shown ++ [frame], deviceLoop := .after frame }
  | writeFails {s : State} {frame : Frame} (hphase : s.phase.Draining)
      (hloop : s.deviceLoop = .writing frame) (halive : s.alive = true) :
      Step session s .fails { s with alive := false, deviceLoop := .after frame }
  | skip {s : State} {frame : Frame} (hphase : s.phase.Draining)
      (hloop : s.deviceLoop = .writing frame) (hdead : s.alive = false) :
      Step session s .relay { s with deviceLoop := .after frame }
  -- the `select!`, and the `timeout` after it
  | deviceEnds {s : State} {result : Result} (hphase : s.phase.Draining)
      (hloop : s.deviceLoop = .ended result) :
      Step session s .relay { s with phase := .returned result }
  | localFails {s : State} {failure : Failure} (hphase : s.phase = .relaying)
      (hloop : s.localLoop = .ended (.error failure)) :
      Step session s .relay { s with phase := .returned (.error failure) }
  | localEnds {s : State} (hphase : s.phase = .relaying)
      (hloop : s.localLoop = .ended (.ok ())) :
      Step session s .relay { s with phase := .draining }
  | timeout {s : State} (hphase : s.phase = .draining) :
      Step session s .fails { s with phase := .returned (.error .timeout) }

def system (session : Session) : System State Action where
  init s := s = .initial
  step := Step session

/-- The handler has not come to its loops. -/
def Phase.Early : Phase → Prop
  | .opening | .replying _ => True
  | _ => False

/-! Up to the device. -/

/-- A frame of this stream that asks something of a terminal. -/
def Fits (session : Session) (frame : Frame) : Prop :=
  frame.streamId = session.streamId ∧ isPtyRequest frame.kind = true

/-- The client is gone, and all that it sent has been read. -/
def Gone (s : State) : Prop := s.typed.isCut = true ∧ s.typed.queue = []

/-- What came from the client goes up with the frame in hand behind it, and at the end at most
a close that stands for a client that is gone. -/
structure Upward (session : Session) (s : State) : Prop where
  early : s.phase.Early → s.localLoop = .reading ∧ s.upstream = []
  held : s.localLoop.Running →
    s.upstream ++ s.localLoop.hand = s.typed.taken.map (restamp session)
  ended : ¬ s.localLoop.Running → s.upstream <+: s.typed.taken.map (restamp session) ∨
    s.upstream = s.typed.taken.map (restamp session) ++ [closeFrame session] ∧ Gone s
  closing : s.localLoop = .closing → Gone s
  fits : ∀ frame ∈ s.upstream ++ s.localLoop.hand, Fits session frame
  unclosed : s.localLoop.Running → ∀ frame ∈ s.upstream, frame.kind ≠ .ptyClose
  last : ∃ front back, s.upstream = front ++ back ∧ back.length ≤ 1 ∧
    ∀ frame ∈ front, frame.kind ≠ .ptyClose

section Upward

variable {session : Session} {s t : State} {a : Action}

theorem fits_restamp {frame : Frame} (h : isPtyRequest frame.kind = true) :
    Fits session (restamp session frame) := ⟨rfl, h⟩

theorem fits_closeFrame : Fits session (closeFrame session) := ⟨rfl, rfl⟩

theorem Upward.congr (h : Upward session s) (htyped : t.typed = s.typed)
    (hupstream : t.upstream = s.upstream) (hloop : t.localLoop = s.localLoop)
    (hphase : t.phase.Early → s.phase.Early) : Upward session t := by
  obtain ⟨hearly, hheld, hended, hclosing, hfits, hunclosed, hlast⟩ := h
  constructor
  · intro ht
    rw [hloop, hupstream]
    exact hearly (hphase ht)
  all_goals simp only [Gone, htyped, hupstream, hloop] at *; assumption

theorem Upward.client {typed : Channel Frame} (h : Upward session s)
    (htaken : typed.taken = s.typed.taken)
    (hgone : Gone s → Gone { s with typed := typed }) :
    Upward session { s with typed := typed } where
  early := h.early
  held hrunning := by
    rw [htaken]
    exact h.held hrunning
  ended hover := by
    rw [htaken]
    exact (h.ended hover).imp_right fun ⟨heq, hs⟩ => ⟨heq, hgone hs⟩
  closing hclosing := hgone (h.closing hclosing)
  fits := h.fits
  unclosed := h.unclosed
  last := h.last

theorem Upward.ends {typed : Channel Frame} (result : Result) (h : Upward session s)
    (hphase : s.phase = .relaying)
    (hbehind : s.upstream <+: typed.taken.map (restamp session)) :
    Upward session { s with typed := typed, localLoop := .ended result } where
  early hearly := absurd hearly (by simp [hphase, Phase.Early])
  held hrunning := hrunning.elim
  ended _ := .inl hbehind
  closing := nofun
  fits := by
    have hfits := (List.forall_mem_append.mp h.fits).1
    simpa [LocalLoop.hand] using hfits
  unclosed hrunning := hrunning.elim
  last := h.last

theorem Upward.sends {frame : Frame} (h : Upward session s) (hphase : s.phase = .relaying)
    (hloop : s.localLoop = .sending frame) :
    Upward session { s with
      upstream := s.upstream ++ [frame], localLoop := .after frame } := by
  have hrunning : s.localLoop.Running := by simp [hloop, LocalLoop.Running]
  have hheld := h.held hrunning
  have hfits := h.fits
  rw [hloop, LocalLoop.hand] at hheld hfits
  have hunclosed := h.unclosed hrunning
  refine ⟨fun hearly => absurd hearly (by simp [hphase, Phase.Early]), ?_, ?_, ?_, ?_, ?_,
    s.upstream, [frame], rfl, le_refl _, hunclosed⟩
  · unfold LocalLoop.after
    split
    · exact False.elim
    · simp [LocalLoop.hand, hheld]
  · exact fun _ => .inl (hheld ▸ List.prefix_refl _)
  · unfold LocalLoop.after
    split <;> exact nofun
  · unfold LocalLoop.after
    split <;> simpa [LocalLoop.hand] using hfits
  · unfold LocalLoop.after
    split
    · exact False.elim
    · rename_i hkind
      exact fun _ => List.forall_mem_append.mpr
        ⟨hunclosed, List.forall_mem_singleton.mpr hkind⟩

theorem Upward.closes (h : Upward session s) (hphase : s.phase = .relaying)
    (hloop : s.localLoop = .closing) :
    Upward session { s with
      upstream := s.upstream ++ [closeFrame session], localLoop := .ended (.ok ()) } := by
  have hrunning : s.localLoop.Running := by simp [hloop, LocalLoop.Running]
  have hheld := h.held hrunning
  have hfits := h.fits
  simp only [hloop, LocalLoop.hand, List.append_nil] at hheld hfits
  refine ⟨fun hearly => absurd hearly (by simp [hphase, Phase.Early]), False.elim, fun _ =>
    .inr ⟨by rw [hheld], h.closing hloop⟩, nofun, ?_, False.elim, s.upstream, _, rfl, le_refl _,
    h.unclosed hrunning⟩
  simp only [LocalLoop.hand, List.append_nil]
  exact List.forall_mem_append.mpr ⟨hfits, List.forall_mem_singleton.mpr fits_closeFrame⟩

theorem gone_put {frame : Frame} (h : Gone s) :
    Gone { s with typed := s.typed.put frame } := by
  obtain ⟨hcut, hqueue⟩ := h
  exact ⟨hcut, by simp [Channel.put, hcut, hqueue]⟩

theorem gone_cut {kept : List Frame} (hkept : kept <+: s.typed.queue) (h : Gone s) :
    Gone { s with typed := s.typed.cut kept hkept } :=
  ⟨rfl, List.prefix_nil.mp (h.2 ▸ hkept)⟩

theorem Upward.step (h : Upward session s) (hstep : Step session s a t) : Upward session t := by
  cases hstep with
  | typed frame => exact h.client rfl gone_put
  | hangUp hkept => exact h.client rfl (gone_cut hkept)
  | @read frame rest hphase hloop hqueue hkind =>
      have hheld := h.held (by simp [hloop, LocalLoop.Running])
      have hfits := h.fits
      simp only [hloop, LocalLoop.hand, List.append_nil] at hheld hfits
      refine ⟨fun hearly => absurd hearly (by simp [hphase, Phase.Early]), fun _ => ?_,
        fun hover => absurd trivial hover, nofun, ?_, fun _ => h.unclosed (by
          simp [hloop, LocalLoop.Running]), h.last⟩
      · simp [LocalLoop.hand, hheld]
      · exact List.forall_mem_append.mpr
          ⟨hfits, List.forall_mem_singleton.mpr (fits_restamp hkind)⟩
  | @readOther frame rest hphase hloop hqueue hkind =>
      have hheld := h.held (by simp [hloop, LocalLoop.Running])
      simp only [hloop, LocalLoop.hand, List.append_nil] at hheld
      refine h.ends _ hphase ?_
      simp [hheld]
  | readFails hphase hloop hcut hqueue =>
      have hheld := h.held (by simp [hloop, LocalLoop.Running])
      have hfits := h.fits
      rw [hloop] at hheld hfits
      exact ⟨fun hearly => absurd hearly (by simp [hphase, Phase.Early]), fun _ => hheld,
        fun hover => absurd trivial hover, fun _ => ⟨hcut, hqueue⟩, hfits,
        fun _ => h.unclosed (by simp [hloop, LocalLoop.Running]), h.last⟩
  | send hphase hloop => exact h.sends hphase hloop
  | sendFails hphase hloop | closeFails hphase hloop =>
      have hheld := h.held (by simp [hloop, LocalLoop.Running])
      exact h.ends _ hphase (hheld ▸ List.prefix_append _ _)
  | close hphase hloop => exact h.closes hphase hloop
  | sent | cut => exact h.congr rfl rfl rfl id
  | opened hphase | refused hphase =>
      exact h.congr rfl rfl rfl fun _ => by simp [hphase, Phase.Early]
  | openedBad | openedOther | openFails | reply | replyError | replyFails | deviceEnds
  | localFails | localEnds | timeout => exact h.congr rfl rfl rfl False.elim
  | recv | recvOther | recvFails | write | writeFails | skip => exact h.congr rfl rfl rfl id

theorem upward_of_reachable (h : (system session).Reachable s) : Upward session s := by
  refine h.invariant ?_ fun _ _ _ hs hstep => hs.step hstep
  rintro _ rfl
  exact ⟨fun _ => ⟨rfl, rfl⟩, fun _ => rfl, fun hover => absurd trivial hover, nofun, nofun,
    fun _ => nofun, [], [], rfl, Nat.zero_le _, nofun⟩

end Upward

/-! Down to the client. -/

/-- The answer that a first frame from the device is turned into. -/
def Answers (session : Session) (frame : Frame) : Reply → Prop
  | .ok pid => frame.kind = .ptyOpenAck ∧ session.decodeAck frame.payload = .ok pid
  | .error payload => frame.kind = .error ∧ frame.payload = payload

def Unfinished (frames : List Frame) : Prop := ∀ frame ∈ frames, finishes frame = false

/-- How far the loop has come with the frames behind the first. -/
def Stands (later : List Frame) : DeviceLoop → Prop
  | .receiving => Unfinished later
  | .writing frame => ∃ front, later = front ++ [frame] ∧ Unfinished front
  | .ended (.ok ()) => ∃ front frame, later = front ++ [frame] ∧ finishes frame = true ∧
      Unfinished front
  | .ended (.error _) => ∃ front back, later = front ++ back ∧ back.length ≤ 1 ∧ Unfinished front

/-- The first frame from the device is answered to the client, and what comes later goes down,
with the frame in hand behind it, as long as the client takes it. -/
structure Downward (session : Session) (s : State) (first : Option Frame) (later : List Frame) :
    Prop where
  taken : s.output.taken = first.toList ++ later
  opening : s.phase = .opening → first = none
  early : s.phase.Early → later = [] ∧ s.reply = none ∧ s.deviceLoop = .receiving
  replying : ∀ answer, s.phase = .replying answer →
    ∃ frame, first = some frame ∧ Answers session frame answer
  replied : ∀ answer, s.reply = some answer →
    ∃ frame, first = some frame ∧ Answers session frame answer
  accepted : s.phase.Draining → ∃ pid, s.reply = some (.ok pid)
  refused : (∀ pid, s.reply ≠ some (.ok pid)) → later = []
  behind : s.shown <+: later
  held : (∀ result, s.deviceLoop ≠ .ended result) → s.alive = true →
    s.shown ++ s.deviceLoop.hand = later
  whole : s.deviceLoop = .ended (.ok ()) → s.alive = true → s.shown = later
  stream : ∀ frame ∈ s.shown ++ s.deviceLoop.hand, frame.streamId = session.streamId
  stands : Stands later s.deviceLoop
  returned : s.phase = .returned (.ok ()) →
    (∃ payload, s.reply = some (.error payload)) ∨ s.deviceLoop = .ended (.ok ())

section Downward

variable {session : Session} {s t : State} {a : Action} {first : Option Frame}
  {later : List Frame}

theorem early_of_opening {phase : Phase} (h : phase = .opening) : phase.Early := by
  rw [h]
  trivial

theorem early_of_replying {phase : Phase} {answer : Reply} (h : phase = .replying answer) :
    phase.Early := by
  rw [h]
  trivial

theorem not_early_of_draining {phase : Phase} (h : phase.Draining) : ¬ phase.Early := by
  cases phase <;> simp_all [Phase.Early, Phase.Draining]

theorem not_returned_of_draining {phase : Phase} {result : Result} (h : phase.Draining) :
    phase ≠ .returned result := by
  rintro rfl
  exact h

theorem Downward.congr (h : Downward session s first later)
    (htaken : t.output.taken = s.output.taken) (hphase : t.phase = s.phase)
    (hreply : t.reply = s.reply) (hshown : t.shown = s.shown) (halive : t.alive = s.alive)
    (hloop : t.deviceLoop = s.deviceLoop) : Downward session t first later := by
  obtain ⟨h₁, h₂, h₃, h₄, h₅, h₆, h₇, h₈, h₉, h₁₀, h₁₁, h₁₂, h₁₃⟩ := h
  constructor <;> simp only [htaken, hphase, hreply, hshown, halive, hloop] at * <;> assumption

theorem Downward.leaves {phase : Phase} (h : Downward session s first later)
    (hearly : ¬ phase.Early) (hdraining : phase.Draining → s.phase.Draining)
    (hreturned : phase = .returned (.ok ()) →
      (∃ payload, s.reply = some (.error payload)) ∨ s.deviceLoop = .ended (.ok ())) :
    Downward session { s with phase := phase } first later where
  taken := h.taken
  opening hphase := absurd (early_of_opening hphase) hearly
  early hphase := absurd hphase hearly
  replying _ hphase := absurd (early_of_replying hphase) hearly
  replied := h.replied
  accepted hphase := h.accepted (hdraining hphase)
  refused := h.refused
  behind := h.behind
  held := h.held
  whole := h.whole
  stream := h.stream
  stands := h.stands
  returned := hreturned

theorem Downward.answers {frame : Frame} {rest : List Frame} {phase : Phase}
    (h : Downward session s first later) (hphase : s.phase = .opening)
    (hqueue : s.output.queue = frame :: rest) (hopening : phase ≠ .opening)
    (hreplying : ∀ answer, phase = .replying answer → Answers session frame answer)
    (hdraining : ¬ phase.Draining) (hreturned : phase ≠ .returned (.ok ())) :
    Downward session { s with output := s.output.take frame rest hqueue, phase := phase }
      (some frame) later := by
  obtain ⟨rfl, hreply, hloop⟩ := h.early (by simp [hphase, Phase.Early])
  have htaken := h.taken
  simp only [h.opening hphase, Option.toList_none, List.append_nil] at htaken
  refine ⟨by simp [htaken], fun heq => absurd heq hopening, fun _ => ⟨rfl, hreply, hloop⟩,
    fun answer heq => ⟨frame, rfl, hreplying answer heq⟩,
    fun answer hanswer => absurd hanswer (by simp [hreply]), fun hdrain => absurd hdrain hdraining,
    h.refused, h.behind, h.held, h.whole, h.stream, h.stands,
    fun heq => absurd heq hreturned⟩

theorem Downward.reply {answer : Reply} {phase : Phase} (h : Downward session s first later)
    (hphase : s.phase = .replying answer) (hearly : ¬ phase.Early)
    (hdraining : phase.Draining → ∃ pid, answer = .ok pid)
    (hreturned : phase = .returned (.ok ()) → ∃ payload, answer = .error payload) :
    Downward session { s with reply := some answer, phase := phase } first later := by
  obtain ⟨rfl, hreply, hloop⟩ := h.early (by simp [hphase, Phase.Early])
  refine ⟨h.taken, fun heq => absurd (early_of_opening heq) hearly,
    fun heq => absurd heq hearly, fun _ heq => absurd (early_of_replying heq) hearly, ?_,
    fun hdrain => (hdraining hdrain).imp fun _ => congrArg some, fun _ => rfl, h.behind, h.held,
    h.whole, h.stream, h.stands,
    fun heq => .inl ((hreturned heq).imp fun _ => congrArg some)⟩
  intro answer' heq
  obtain rfl := Option.some.inj heq
  exact h.replying answer hphase

theorem Downward.takes {frame : Frame} {rest : List Frame} {loop : DeviceLoop}
    (h : Downward session s first later) (hphase : s.phase.Draining)
    (hloop : s.deviceLoop = .receiving) (hqueue : s.output.queue = frame :: rest)
    (hheld : (∀ result, loop ≠ .ended result) → loop = .writing frame)
    (hok : loop ≠ .ended (.ok ()))
    (hstream : ∀ other ∈ loop.hand, other.streamId = session.streamId)
    (hstands : Stands (later ++ [frame]) loop) :
    Downward session { s with output := s.output.take frame rest hqueue, deviceLoop := loop }
      first (later ++ [frame]) := by
  have hearly := not_early_of_draining hphase
  have hreturned : s.phase ≠ .returned (.ok ()) := not_returned_of_draining hphase
  obtain ⟨pid, hpid⟩ := h.accepted hphase
  have hshown := List.forall_mem_append.mp h.stream
  refine ⟨by simp [h.taken], h.opening, fun heq => absurd heq hearly, h.replying, h.replied,
    h.accepted, fun hnone => absurd hpid (hnone pid), h.behind.trans (List.prefix_append _ _),
    fun hgoing halive => ?_, fun heq => absurd heq hok,
    List.forall_mem_append.mpr ⟨hshown.1, hstream⟩, hstands,
    fun heq => absurd heq hreturned⟩
  have hbefore := h.held (by simp [hloop]) halive
  simp only [hloop, DeviceLoop.hand, List.append_nil] at hbefore
  rw [hheld hgoing, hbefore]
  rfl

theorem stands_after {front : List Frame} {frame : Frame} (hfront : Unfinished front) :
    Stands (front ++ [frame]) (.after frame) := by
  unfold DeviceLoop.after
  split
  · exact ⟨front, frame, rfl, ‹_›, hfront⟩
  · exact List.forall_mem_append.mpr
      ⟨hfront, List.forall_mem_singleton.mpr (Bool.eq_false_iff.mpr ‹_›)⟩

theorem hand_after (frame : Frame) : (DeviceLoop.after frame).hand = [] := by
  unfold DeviceLoop.after
  split <;> rfl

theorem Downward.passes {frame : Frame} {shown : List Frame} {alive : Bool}
    (h : Downward session s first later) (hphase : s.phase.Draining)
    (hloop : s.deviceLoop = .writing frame) (hbehind : shown <+: later)
    (hstream : ∀ frame ∈ shown, frame.streamId = session.streamId)
    (hwhole : alive = true → shown = later) :
    Downward session { s with shown := shown, alive := alive, deviceLoop := .after frame }
      first later := by
  have hearly := not_early_of_draining hphase
  have hreturned : s.phase ≠ .returned (.ok ()) := not_returned_of_draining hphase
  have hstands := h.stands
  rw [hloop] at hstands
  obtain ⟨front, rfl, hfront⟩ := hstands
  refine ⟨h.taken, h.opening, fun heq => absurd heq hearly, h.replying, h.replied, h.accepted,
    h.refused, hbehind, fun _ halive => ?_, fun _ => hwhole, ?_, stands_after hfront,
    fun heq => absurd heq hreturned⟩
  · rw [hand_after, List.append_nil, hwhole halive]
  · rw [hand_after, List.append_nil]
    exact hstream

theorem Downward.step (h : Downward session s first later) (hstep : Step session s a t) :
    ∃ first later, Downward session t first later := by
  have hstream := (List.forall_mem_append.mp h.stream).1
  cases hstep with
  | typed | hangUp | read | readOther | readFails | send | sendFails | close | closeFails
  | sent | cut => exact ⟨first, later, h.congr rfl rfl rfl rfl rfl rfl⟩
  | @opened frame rest pid hphase hqueue hkind hdecode =>
      refine ⟨_, _, h.answers hphase hqueue nofun ?_ id nofun⟩
      rintro _ heq
      obtain rfl := Phase.replying.inj heq
      exact ⟨hkind, hdecode⟩
  | @refused frame rest hphase hqueue hkind =>
      refine ⟨_, _, h.answers hphase hqueue nofun ?_ id nofun⟩
      rintro _ heq
      obtain rfl := Phase.replying.inj heq
      exact ⟨hkind, rfl⟩
  | openedBad hphase hqueue | openedOther hphase hqueue =>
      exact ⟨_, _, h.answers hphase hqueue nofun (fun _ => nofun) id nofun⟩
  | openFails | replyFails | timeout | localFails =>
      exact ⟨first, later, h.leaves id False.elim nofun⟩
  | reply hphase =>
      exact ⟨first, later, h.reply hphase id (fun _ => ⟨_, rfl⟩) nofun⟩
  | replyError hphase =>
      exact ⟨first, later, h.reply hphase id False.elim fun _ => ⟨_, rfl⟩⟩
  | localEnds hphase =>
      exact ⟨first, later, h.leaves id (fun _ => by simp [hphase, Phase.Draining]) nofun⟩
  | @deviceEnds result hphase hloop =>
      refine ⟨first, later, h.leaves id False.elim fun heq => .inr ?_⟩
      rw [hloop, Phase.returned.inj heq]
  | @recv frame rest hphase hloop hqueue hid =>
      have hstands := h.stands
      rw [hloop] at hstands
      exact ⟨_, _, h.takes hphase hloop hqueue (fun _ => rfl) nofun
        (List.forall_mem_singleton.mpr hid) ⟨later, rfl, hstands⟩⟩
  | @recvOther frame rest hphase hloop hqueue hid =>
      have hstands := h.stands
      rw [hloop] at hstands
      exact ⟨_, _, h.takes hphase hloop hqueue (fun hgoing => absurd rfl (hgoing _)) nofun nofun
        ⟨later, [frame], rfl, le_refl _, hstands⟩⟩
  | recvFails hphase hloop hcut =>
      have hearly := not_early_of_draining hphase
      have hstands := h.stands
      rw [hloop] at hstands
      exact ⟨first, later, h.taken, h.opening, fun heq => absurd heq hearly, h.replying, h.replied,
        h.accepted, h.refused, h.behind, fun hgoing => absurd rfl (hgoing _), nofun,
        by simpa [DeviceLoop.hand] using hstream, ⟨later, [], by simp, Nat.zero_le _, hstands⟩,
        fun heq => absurd heq (not_returned_of_draining hphase)⟩
  | @write frame hphase hloop halive =>
      have hheld := h.held (by simp [hloop]) halive
      have hall := h.stream
      rw [hloop, DeviceLoop.hand] at hheld hall
      exact ⟨first, later, h.passes hphase hloop (hheld ▸ List.prefix_refl _) hall
        fun _ => hheld⟩
  | writeFails hphase hloop halive =>
      exact ⟨first, later, h.passes hphase hloop h.behind hstream nofun⟩
  | skip hphase hloop hdead =>
      exact ⟨first, later, h.passes hphase hloop h.behind hstream (by simp [hdead])⟩

theorem downward_of_reachable (h : (system session).Reachable s) :
    ∃ first later, Downward session s first later := by
  refine System.Reachable.invariant
    (P := fun s => ∃ first later, Downward session s first later) ?_
    (fun _ _ _ ⟨_, _, hs⟩ hstep => hs.step hstep) h
  rintro _ rfl
  exact ⟨none, [], rfl, fun _ => rfl, fun _ => ⟨rfl, rfl, rfl⟩, fun _ => nofun, fun _ => nofun,
    False.elim, fun _ => rfl, List.prefix_refl _, fun _ _ => rfl, nofun, nofun, nofun, nofun⟩

end Downward

/-! Both ways. -/

/-- No frame but the last is one that `isLast` tells. -/
def ClosesWith (isLast : Frame → Prop) (frames : List Frame) : Prop :=
  ∀ front back, frames = front ++ back → back ≠ [] → ∀ frame ∈ front, ¬ isLast frame

/-! A client types a letter and hangs up, and the terminal ends. -/

def smallSession : Session := ⟨1, fun _ => .ok 7⟩

def letter : Frame := TerminalInput.ptyFrame .ptyInput [0x6c]

def exitFrame : Frame := ⟨.ptyExit, 1, []⟩

theorem exists_ended : ∃ s, (system smallSession).Reachable s ∧
    s.typed.sent = [letter] ∧ s.upstream = [⟨.ptyInput, 1, [0x6c]⟩, ⟨.ptyClose, 1, []⟩] ∧
    s.shown = [exitFrame] ∧ s.alive = true ∧ s.reply = some (.ok 7) ∧
    s.phase = .returned (.ok ()) :=
  ⟨_, ⟨.initial, rfl, System.Leads.head (.sent ⟨.ptyOpenAck, 1, []⟩) <|
    System.Leads.head (@Step.opened smallSession _ ⟨.ptyOpenAck, 1, []⟩ [] 7 rfl rfl rfl rfl) <|
    System.Leads.head (.reply rfl) <| System.Leads.head (.typed letter) <|
    System.Leads.head (@Step.read smallSession _ letter [] rfl rfl rfl rfl) <|
    System.Leads.head (@Step.send smallSession _ ⟨.ptyInput, 1, [0x6c]⟩ rfl rfl) <|
    System.Leads.head (@Step.hangUp smallSession _ [] (List.nil_prefix)) <|
    System.Leads.head (.readFails rfl rfl rfl rfl) <| System.Leads.head (.close rfl rfl) <|
    System.Leads.head (.localEnds rfl rfl) <| System.Leads.head (.sent exitFrame) <|
    System.Leads.head (@Step.recv smallSession _ exitFrame [] (by trivial) rfl rfl rfl) <|
    System.Leads.head (@Step.write smallSession _ exitFrame (by trivial) rfl rfl) <|
    .single (@Step.deviceEnds smallSession _ (.ok ()) (by trivial) rfl)⟩,
    rfl, rfl, rfl, rfl, rfl, rfl⟩

section Reading

variable {session : Session} {s t : State} {a : Action}

theorem asked_of_reachable (h : (system session).Reachable s) :
    s.upstream ≠ [] → ∃ pid, s.reply = some (.ok pid) := by
  refine System.Reachable.invariant_of
    (P := fun s => Upward session s ∧ ∃ first later, Downward session s first later)
    (Q := fun s => s.upstream ≠ [] → ∃ pid, s.reply = some (.ok pid))
    (fun _ hs => ⟨upward_of_reachable hs, downward_of_reachable hs⟩) ?_ ?_ h
  · rintro _ rfl hupstream
    exact absurd rfl hupstream
  · rintro s a t ⟨hup, first, later, hdown⟩ hs hstep
    cases hstep with
    | send hphase | close hphase => exact fun _ => hdown.accepted (by simp [hphase, Phase.Draining])
    | reply hphase | replyError hphase =>
        exact fun hupstream => absurd (hup.early (early_of_replying hphase)).2 hupstream
    | _ => exact hs

theorem closesWith_of_split {isLast : Frame → Prop} {frames front back : List Frame}
    (hframes : frames = front ++ back) (hback : back.length ≤ 1)
    (hfront : ∀ frame ∈ front, ¬ isLast frame) : ClosesWith isLast frames := by
  intro front' back' hsplit hback' frame hframe
  have hlength := congrArg List.length (hframes.symm.trans hsplit)
  have hpos := List.length_pos_iff.mpr hback'
  simp only [List.length_append] at hlength
  have hshort : front' <+: front :=
    List.prefix_of_prefix_length_le (hsplit ▸ List.prefix_append _ _)
      (hframes ▸ List.prefix_append _ _) (by omega)
  exact hfront frame (hshort.mem hframe)

theorem ClosesWith.of_behind {isLast : Frame → Prop} {frames frames' : List Frame}
    (h : ClosesWith isLast frames') (hbehind : frames <+: frames') :
    ClosesWith isLast frames := by
  obtain ⟨rest, rfl⟩ := hbehind
  intro front back hsplit hback
  exact h front (back ++ rest) (by rw [hsplit, List.append_assoc]) (by simp [hback])

theorem closesWith_of_stands {frames : List Frame} {loop : DeviceLoop} (h : Stands frames loop) :
    ClosesWith (finishes · = true) frames := by
  have hunfinished {front : List Frame} (hfront : Unfinished front) :
      ∀ frame ∈ front, ¬ finishes frame = true := fun frame hframe => by
    simp [hfront frame hframe]
  cases loop with
  | receiving =>
      exact closesWith_of_split (List.append_nil _).symm (Nat.zero_le _) (hunfinished h)
  | writing frame =>
      obtain ⟨front, heq, hfront⟩ := h
      exact closesWith_of_split heq (le_refl _) (hunfinished hfront)
  | ended result =>
      cases result with
      | ok =>
          obtain ⟨front, frame, heq, -, hfront⟩ := h
          exact closesWith_of_split heq (le_refl _) (hunfinished hfront)
      | error failure =>
          obtain ⟨front, back, heq, hback, hfront⟩ := h
          exact closesWith_of_split heq hback (hunfinished hfront)

theorem upstream_of_sent (h : (system session).Reachable s) :
    s.upstream <+: s.typed.sent.map (restamp session) ∨
      s.upstream = s.typed.taken.map (restamp session) ++ [closeFrame session] ∧ Gone s := by
  have hup := upward_of_reachable h
  have htaken : s.typed.taken.map (restamp session) <+: s.typed.sent.map (restamp session) :=
    s.typed.taken_prefix.map _
  by_cases hrunning : s.localLoop.Running
  · exact .inl (((hup.held hrunning) ▸ List.prefix_append _ _).trans htaken)
  · exact (hup.ended hrunning).imp_left (·.trans htaken)

theorem upstream_of_reading (h : (system session).Reachable s) (hloop : s.localLoop = .reading)
    (hqueue : s.typed.queue = []) (hcut : s.typed.isCut = false) :
    s.upstream = s.typed.sent.map (restamp session) := by
  have hheld := (upward_of_reachable h).held (by simp [hloop, LocalLoop.Running])
  simpa only [hloop, LocalLoop.hand, List.append_nil, s.typed.taken_eq_sent hcut hqueue]
    using hheld

/-- What goes up to the device is what the client sent, under the stream's own id: in its order,
nothing lost or sent twice, nothing that is no request to a terminal, and a close at the end
only. One frame may be the handler's own: the close that stands for a client that is gone, and
it goes up behind everything that came from that client. Nothing goes up unless the device has
opened the terminal, and the client was told. -/
theorem upstream_faithful (h : (system session).Reachable s) :
    (s.upstream <+: s.typed.sent.map (restamp session) ∨
        s.upstream = s.typed.taken.map (restamp session) ++ [closeFrame session] ∧ Gone s) ∧
      (s.localLoop = .reading → s.typed.queue = [] → s.typed.isCut = false →
        s.upstream = s.typed.sent.map (restamp session)) ∧
      (∀ frame ∈ s.upstream, Fits session frame) ∧
      ClosesWith (·.kind = .ptyClose) s.upstream ∧
      (s.upstream ≠ [] → ∃ pid, s.reply = some (.ok pid)) := by
  have hup := upward_of_reachable h
  obtain ⟨front, back, heq, hback, hfront⟩ := hup.last
  exact ⟨upstream_of_sent h, upstream_of_reading h, (List.forall_mem_append.mp hup.fits).1,
    closesWith_of_split heq hback hfront, asked_of_reachable h⟩

theorem upstream_faithful_ended : ∃ s, (system smallSession).Reachable s ∧
    s.typed.taken = [letter] ∧ Gone s := by
  obtain ⟨s, h, hsent, hupstream, -⟩ := exists_ended
  obtain ⟨hbehind | ⟨heq, hgone⟩, -⟩ := upstream_faithful h
  · simp [hsent, hupstream] at hbehind
  · refine ⟨s, h, ?_, hgone⟩
    have hlength := congrArg List.length heq
    simp only [hupstream, List.length_append, List.length_map, List.length_cons,
      List.length_nil] at hlength
    have htaken := s.typed.taken_prefix
    rw [hsent] at htaken
    exact htaken.eq_of_length (by simpa using (Nat.succ.inj hlength).symm)

/-- What comes down to the client is what the device sent. Its first frame is turned into the
answer to the request; the frames behind it go to the client as they are, in their order, up to
the one that ends the terminal, and none is missing that the handler has come to, while the
client takes them. The handler is done with success only when the device refused or the
terminal has ended. -/
theorem downstream_faithful (h : (system session).Reachable s) :
    (s.reply = none → s.shown = []) ∧
      (∀ answer, s.reply = some answer → ∃ first later,
        first :: later <+: s.output.sent ∧ Answers session first answer ∧ s.shown <+: later ∧
        (s.deviceLoop = .receiving → s.alive = true → s.output.queue = [] →
          s.output.isCut = false → first :: s.shown = s.output.sent)) ∧
      (∀ frame ∈ s.shown, frame.streamId = session.streamId) ∧
      ClosesWith (finishes · = true) s.shown ∧
      (s.phase = .returned (.ok ()) → s.alive = true →
        (∃ payload, s.reply = some (.error payload)) ∨
          ∃ front last, s.shown = front ++ [last] ∧ finishes last = true) := by
  obtain ⟨first, later, hdown⟩ := downward_of_reachable h
  refine ⟨fun hreply => ?_, fun answer hanswer => ?_, (List.forall_mem_append.mp hdown.stream).1,
    (closesWith_of_stands hdown.stands).of_behind hdown.behind, fun hphase halive => ?_⟩
  · have hlater := hdown.refused (by simp [hreply])
    exact List.prefix_nil.mp (hlater ▸ hdown.behind)
  · obtain ⟨frame, rfl, hanswers⟩ := hdown.replied answer hanswer
    have htaken : s.output.taken = frame :: later := hdown.taken
    refine ⟨frame, later, htaken ▸ s.output.taken_prefix, hanswers, hdown.behind,
      fun hloop halive hqueue hcut => ?_⟩
    have hheld := hdown.held (by simp [hloop]) halive
    simp only [hloop, DeviceLoop.hand, List.append_nil] at hheld
    rw [hheld, ← htaken, s.output.taken_eq_sent hcut hqueue]
  · refine (hdown.returned hphase).imp_right fun hloop => ?_
    have hstands := hdown.stands
    rw [hloop] at hstands
    obtain ⟨front, last, heq, hlast, -⟩ := hstands
    exact ⟨front, last, (hdown.whole hloop halive).trans heq, hlast⟩

theorem downstream_faithful_ended : ∃ s, (system smallSession).Reachable s ∧
    ∃ front last, s.shown = front ++ [last] ∧ finishes last = true := by
  obtain ⟨s, h, -, -, -, halive, hreply, hphase⟩ := exists_ended
  obtain ⟨-, -, -, -, hended⟩ := downstream_faithful h
  refine ⟨s, h, (hended hphase halive).resolve_left ?_⟩
  rintro ⟨payload, hrefused⟩
  simp [hreply] at hrefused

end Reading

section Typing

variable {session : Session} {s : State} {t : TerminalInput.State}
  {encodeResize : PtyResize → Except String Bytes}

theorem frameItems_restamp (frame : Frame) :
    frameItems (restamp session frame) = frameItems frame := rfl

theorem flatMap_frameItems_restamp (frames : List Frame) :
    (frames.map (restamp session)).flatMap frameItems = frames.flatMap frameItems := by
  rw [List.flatMap_map]
  exact List.flatMap_congr fun frame _ => frameItems_restamp frame

/-- From the console to the device: what is typed comes there byte for byte and resize for
resize in the order of the events, up to a close that stands for a client that is gone, and all
of it has come there when neither the client nor the handler has anything left to send. -/
theorem typing_reaches_device (ht : (inputLoop encodeResize).Reachable t)
    (hs : (system session).Reachable s) (hlink : s.typed.sent <+: t.sent) :
    (s.upstream.flatMap frameItems <+: t.arrived.flatMap (eventItems encodeResize) ∨
        ∃ items, s.upstream.flatMap frameItems = items ++ [.close] ∧
          items <+: t.arrived.flatMap (eventItems encodeResize) ∧ Gone s) ∧
      (t.Idle → s.typed.sent = t.sent → s.localLoop = .reading → s.typed.queue = [] →
        s.typed.isCut = false →
        s.upstream.flatMap frameItems = t.arrived.flatMap (eventItems encodeResize)) := by
  have htyped {frames : List Frame} (hframes : frames <+: s.typed.sent) :
      frames.flatMap frameItems <+: t.arrived.flatMap (eventItems encodeResize) :=
    ((hframes.trans hlink).flatMap _).trans (relayed ht)
  refine ⟨?_, fun hidle hsent hloop hqueue hcut => ?_⟩
  · rcases upstream_of_sent hs with hbehind | ⟨hupstream, hgone⟩
    · have hitems := hbehind.flatMap frameItems
      rw [flatMap_frameItems_restamp] at hitems
      exact .inl (hitems.trans (htyped (List.prefix_refl _)))
    · refine .inr ⟨s.typed.taken.flatMap frameItems, ?_, htyped s.typed.taken_prefix, hgone⟩
      rw [hupstream, List.flatMap_append, flatMap_frameItems_restamp]
      rfl
  · rw [upstream_of_reading hs hloop hqueue hcut, flatMap_frameItems_restamp, hsent]
    exact delivered ht hidle

theorem typing_reaches_device_ended : ∃ s, (system smallSession).Reachable s ∧
    ∃ items, s.upstream.flatMap frameItems = items ++ [.close] ∧
      items <+: TerminalInput.typed.arrived.flatMap (eventItems TerminalInput.smallSize) := by
  obtain ⟨s, h, hsent, hupstream, -⟩ := exists_ended
  have hlink : s.typed.sent <+: TerminalInput.typed.sent :=
    hsent ▸ ⟨[TerminalInput.ptyFrame .ptyResize [80, 24]], rfl⟩
  refine ⟨s, h, ?_⟩
  rcases (typing_reaches_device TerminalInput.reachable_typed h hlink).1 with hbehind | hclosed
  · obtain ⟨rest, heq⟩ := hbehind
    simp [hupstream, frameItems, eventItems, TerminalInput.typed] at heq
  · exact hclosed.imp fun _ => And.imp_right And.left

end Typing

end SideWire.PtyRelay
