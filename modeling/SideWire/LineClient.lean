import Mathlib.Logic.Function.Basic
import SideWire.Base.TransitionSystem
import SideWire.PtyCompletion

/-!
The line client of a PTY: the thread of `spawn_line_reader` on the console, the loop of
`run_pty_line_client`, and the device at the other end of the control socket, which takes up
what it is sent in its order. What the two print is left out.
-/

namespace SideWire.LineClient

open SideWire.TransitionSystem
open SideWire.ByteString
open SideWire.PairingStore (Text)
open SideWire.PtyCompletion (PtyCompleteRequest PtyCompleteResult)

/-! Texts of the console. -/

def isHighSurrogate (unit : UInt16) : Bool := 0xD800 ≤ unit && unit ≤ 0xDBFF
def isLowSurrogate (unit : UInt16) : Bool := 0xDC00 ≤ unit && unit ≤ 0xDFFF

def joinSurrogates (high low : UInt16) : Char :=
  Char.ofNat (0x10000 + (high.toNat - 0xD800) * 0x400 + (low.toNat - 0xDC00))

/-- `String::from_utf16_lossy`. -/
def fromUtf16Lossy : List UInt16 → Text
  | [] => []
  | unit :: rest =>
      if isHighSurrogate unit then
        match rest with
        | low :: more =>
            if isLowSurrogate low then joinSurrogates unit low :: fromUtf16Lossy more
            else Char.ofNat 0xFFFD :: fromUtf16Lossy (low :: more)
        | [] => [Char.ofNat 0xFFFD]
      else if isLowSurrogate unit then Char.ofNat 0xFFFD :: fromUtf16Lossy rest
      else Char.ofNat unit.toNat :: fromUtf16Lossy rest

def charUtf16 (c : Char) : List UInt16 :=
  if c.toNat < 0x10000 then [UInt16.ofNat c.toNat]
  else
    [UInt16.ofNat (0xD800 + (c.toNat - 0x10000) / 0x400),
      UInt16.ofNat (0xDC00 + (c.toNat - 0x10000) % 0x400)]

/-- `str::encode_utf16`. -/
def encodeUtf16 (text : Text) : List UInt16 := text.flatMap charUtf16

/-- The line ending of the host's console becomes one line feed. -/
def normalizeConsoleLine (line : Bytes) : Bytes :=
  if line.getLast? = some 10 then
    (if line.dropLast.getLast? = some 13 then line.dropLast.dropLast else line.dropLast) ++ [10]
  else line

def tab : UInt16 := 0x09
def bufferChars : Nat := 8192

/-! The parties. -/

/-- A `ConsoleEvent`; the channel that a completion is to be sent to has a number. -/
inductive Event
  | input (bytes : Bytes)
  | resize (cols rows : UInt16)
  | complete (request : PtyCompleteRequest) (reply : Nat)
  | error (message : String)
  | eof

/-- The thread at the console, with the first `keep` units of its buffer, or the one that reads
lines where there is no console. -/
inductive Reader
  | reading (keep : List UInt16)
  | waiting (reply : Nat) (line : Text)
  | piped
  | ended
  deriving DecidableEq

/-- The loop of the client with its `completion_reply`. -/
inductive Client
  | running (completionReply : Option Nat)
  | finished
  deriving DecidableEq

/-- The frames to the device. -/
inductive Outgoing
  | input (bytes : Bytes)
  | resize (cols rows : UInt16)
  | complete (request : PtyCompleteRequest)
  | close

/-- The frames from the device. Those that end the session are not told apart. -/
inductive Incoming
  | output (bytes : Bytes)
  | result (result : PtyCompleteResult)
  | last

/-- What the client sends a frame for. -/
inductive Cause
  | input (bytes : Bytes)
  | resize (cols rows : UInt16)
  | complete (request : PtyCompleteRequest)
  | eof
  | interrupt

def Cause.frame : Cause → Outgoing
  | .input bytes => .input bytes
  | .resize cols rows => .resize cols rows
  | .complete request => .complete request
  | .eof => .close
  | .interrupt => .input [0x03]

/-- `replies` holds what has been sent to the channels of completions, `asked` counts these
channels. `serving` says that the device's own `input_loop` goes on. The lines that have been
read are in `submitted`, and `sent` and `received` are what the client has sent and the device
has taken up. -/
structure State where
  reader : Reader
  stop : Bool
  events : List Event
  client : Client
  replies : Nat → Option (Option PtyCompleteResult)
  asked : Nat
  toDevice : List Outgoing
  fromDevice : List Incoming
  serving : Bool
  submitted : List Bytes
  sent : List Cause
  received : List Outgoing

def State.initial (reader : Reader) : State where
  reader := reader
  stop := false
  events := []
  client := .running none
  replies := fun _ => none
  asked := 0
  toDevice := []
  fromDevice := []
  serving := true
  submitted := []
  sent := []
  received := []

namespace State

/-- A send to the channel of events. What comes there after the client has left its loop is
lost. -/
def send (s : State) (event : Event) : State :=
  { s with events := if s.client = .finished then [] else s.events ++ [event] }

/-- The reader puts a line into its buffer, unless it is too long. -/
def keepLine (s : State) (message : String) (line : Text) : State :=
  if bufferChars ≤ (encodeUtf16 line).length then
    { s.send (.error message) with reader := .ended }
  else { s with reader := .reading (encodeUtf16 line) }

/-- The client writes a frame, with `rest` the events behind the one it stands for. -/
def forward (s : State) (cause : Cause) (rest : List Event) : State :=
  { s with events := rest, toDevice := s.toDevice ++ [cause.frame], sent := s.sent ++ [cause] }

/-- The client returns from within its loop, and its channels are dropped. -/
def abort (s : State) : State := { s with client := .finished, events := [] }

/-- The client breaks its loop. -/
def finish (s : State) : State :=
  { s.abort with
    stop := true
    replies := match s.client with
      | .running (some reply) => Function.update s.replies reply (some none)
      | _ => s.replies }

/-- The device takes up a frame. -/
def takeUp (s : State) (frame : Outgoing) (rest : List Outgoing) : State :=
  { s with toDevice := rest, received := s.received ++ [frame] }

end State

/-- The cursor is at the end of the line. -/
def requestOf (line : Text) : PtyCompleteRequest := ⟨line, UInt32.ofNat (intoBytes line).length⟩

/-- What can happen: the reader and the client by themselves, the `input_loop` of the device,
and all that comes from outside, with the ends and the failures. -/
inductive Action
  | reader
  | client
  | device
  | outside
  deriving DecidableEq

/-- `Answers` says what the device may make of a request. -/
inductive Step (Answers : PtyCompleteRequest → PtyCompleteResult → Prop) :
    State → Action → State → Prop
  -- the reader of the console
  | readerStops {s : State} {keep : List UInt16} (hreader : s.reader = .reading keep)
      (hstop : s.stop = true) : Step Answers s .reader { s with reader := .ended }
  | readerFull {s : State} {keep : List UInt16} (hreader : s.reader = .reading keep)
      (hfull : bufferChars - 1 ≤ keep.length) :
      Step Answers s .reader
        { s.send (.error "console input line is too long") with reader := .ended }
  | readFails {s : State} {keep : List UInt16} (message : String)
      (hreader : s.reader = .reading keep) :
      Step Answers s .outside { s.send (.error message) with reader := .ended }
  | edit {s : State} {keep : List UInt16} (front back : List UInt16)
      (hreader : s.reader = .reading keep) (htyped : (front ++ tab :: back).length ≤ bufferChars)
      (htab : tab ∉ front) (hback : back ≠ []) :
      Step Answers s .outside (s.keepLine "console input line is too long"
        (fromUtf16Lossy front ++ fromUtf16Lossy back))
  | ask {s : State} {keep : List UInt16} (front : List UInt16)
      (hreader : s.reader = .reading keep) (htyped : (front ++ [tab]).length ≤ bufferChars)
      (htab : tab ∉ front) :
      Step Answers s .outside
        { s.send (.complete (requestOf (fromUtf16Lossy front)) s.asked) with
          reader := .waiting s.asked (fromUtf16Lossy front), asked := s.asked + 1 }
  | submit {s : State} {keep : List UInt16} (typed : List UInt16)
      (hreader : s.reader = .reading keep) (hne : typed ≠ [])
      (htyped : typed.length ≤ bufferChars) (htab : tab ∉ typed) :
      Step Answers s .outside
        { s.send (.input (normalizeConsoleLine (intoBytes (fromUtf16Lossy typed)))) with
          reader := .reading [], submitted := s.submitted ++ [intoBytes (fromUtf16Lossy typed)] }
  | sendFails {s : State} {keep : List UInt16} (hreader : s.reader = .reading keep)
      (hclient : s.client = .finished) : Step Answers s .outside { s with reader := .ended }
  | answered {s : State} {reply : Nat} {line : Text} {result : PtyCompleteResult}
      (hreader : s.reader = .waiting reply line)
      (hreply : s.replies reply = some (some result)) :
      Step Answers s .reader (s.keepLine "completed console line is too long" result.line)
  | showFails {s : State} {reply : Nat} {line : Text} {result : PtyCompleteResult}
      (message : String) (hreader : s.reader = .waiting reply line)
      (hreply : s.replies reply = some (some result)) :
      Step Answers s .outside { s.send (.error message) with reader := .ended }
  | refused {s : State} {reply : Nat} {line : Text} (hreader : s.reader = .waiting reply line)
      (hreply : s.replies reply = some none) :
      Step Answers s .reader { s with reader := .ended }
  | dropped {s : State} {reply : Nat} {line : Text} (hreader : s.reader = .waiting reply line)
      (hreply : s.replies reply = none) (hclient : s.client = .finished) :
      Step Answers s .reader { s with reader := .ended }
  -- the reader where there is no console
  | pipedLine {s : State} (line : Bytes) (hreader : s.reader = .piped) :
      Step Answers s .outside { s.send (.input (normalizeConsoleLine line)) with
        submitted := s.submitted ++ [line] }
  | pipedEnds {s : State} (hreader : s.reader = .piped) :
      Step Answers s .outside { s.send .eof with reader := .ended }
  | pipedFails {s : State} (message : String) (hreader : s.reader = .piped) :
      Step Answers s .outside { s.send (.error message) with reader := .ended }
  | pipedStops {s : State} (hreader : s.reader = .piped)
      (hstop : s.stop = true ∨ s.client = .finished) :
      Step Answers s .outside { s with reader := .ended }
  -- `spawn_line_resize_reader`
  | resize {s : State} (cols rows : UInt16) : Step Answers s .outside (s.send (.resize cols rows))
  -- the events that the client takes up
  | takeInput {s : State} {pending : Option Nat} {bytes : Bytes} {rest : List Event}
      (hclient : s.client = .running pending) (hevents : s.events = .input bytes :: rest) :
      Step Answers s .client (s.forward (.input bytes) rest)
  | takeResize {s : State} {pending : Option Nat} {cols rows : UInt16} {rest : List Event}
      (hclient : s.client = .running pending) (hevents : s.events = .resize cols rows :: rest) :
      Step Answers s .client (s.forward (.resize cols rows) rest)
  | takeComplete {s : State} {request : PtyCompleteRequest} {reply : Nat} {rest : List Event}
      (hclient : s.client = .running none) (hevents : s.events = .complete request reply :: rest) :
      Step Answers s .client
        { s.forward (.complete request) rest with client := .running (some reply) }
  | refuse {s : State} {pending : Nat} {request : PtyCompleteRequest} {reply : Nat}
      {rest : List Event} (hclient : s.client = .running (some pending))
      (hevents : s.events = .complete request reply :: rest) :
      Step Answers s .client { s with
        events := rest, replies := Function.update s.replies reply (some none) }
  | takeError {s : State} {pending : Option Nat} {message : String} {rest : List Event}
      (hclient : s.client = .running pending) (hevents : s.events = .error message :: rest) :
      Step Answers s .client s.finish
  | takeEof {s : State} {pending : Option Nat} {rest : List Event}
      (hclient : s.client = .running pending) (hevents : s.events = .eof :: rest) :
      Step Answers s .client (s.forward .eof rest).finish
  | interrupt {s : State} {pending : Option Nat} (hclient : s.client = .running pending) :
      Step Answers s .outside (s.forward .interrupt s.events)
  -- a write, a read or a print fails
  | fails {s : State} {pending : Option Nat} (hclient : s.client = .running pending) :
      Step Answers s .outside s.abort
  | lost {s : State} {pending : Option Nat} (hclient : s.client = .running pending) :
      Step Answers s .outside s.finish
  -- the frames that the client takes up
  | takeOutput {s : State} {pending : Option Nat} {bytes : Bytes} {rest : List Incoming}
      (hclient : s.client = .running pending) (hframes : s.fromDevice = .output bytes :: rest) :
      Step Answers s .client { s with fromDevice := rest }
  | takeResult {s : State} {reply : Nat} {result : PtyCompleteResult} {rest : List Incoming}
      (hclient : s.client = .running (some reply))
      (hframes : s.fromDevice = .result result :: rest) :
      Step Answers s .client { s with
        fromDevice := rest, client := .running none
        replies := Function.update s.replies reply (some (some result)) }
  | ignoreResult {s : State} {result : PtyCompleteResult} {rest : List Incoming}
      (hclient : s.client = .running none) (hframes : s.fromDevice = .result result :: rest) :
      Step Answers s .client { s with fromDevice := rest }
  | takeLast {s : State} {pending : Option Nat} {rest : List Incoming}
      (hclient : s.client = .running pending) (hframes : s.fromDevice = .last :: rest) :
      Step Answers s .client { s with fromDevice := rest }.finish
  -- the device
  | deviceTakes {s : State} {frame : Outgoing} {rest : List Outgoing}
      (hserving : s.serving = true) (hframes : s.toDevice = frame :: rest)
      (hframe : frame ≠ .close ∧ ∀ request, frame ≠ .complete request) :
      Step Answers s .device (s.takeUp frame rest)
  | deviceAnswers {s : State} {request : PtyCompleteRequest} {result : PtyCompleteResult}
      {rest : List Outgoing} (hserving : s.serving = true)
      (hframes : s.toDevice = .complete request :: rest) (hanswers : Answers request result) :
      Step Answers s .device
        { s.takeUp (.complete request) rest with fromDevice := s.fromDevice ++ [.result result] }
  | deviceCloses {s : State} {rest : List Outgoing} (hserving : s.serving = true)
      (hframes : s.toDevice = .close :: rest) :
      Step Answers s .device { s.takeUp .close rest with serving := false }
  | deviceFails {s : State} {frame : Outgoing} {rest : List Outgoing}
      (hserving : s.serving = true) (hframes : s.toDevice = frame :: rest) :
      Step Answers s .outside { s.takeUp frame rest with serving := false }
  | deviceOutput {s : State} (bytes : Bytes) :
      Step Answers s .outside { s with fromDevice := s.fromDevice ++ [.output bytes] }
  | shellEnds {s : State} : Step Answers s .outside { s with serving := false }
  | deviceEnds {s : State} (hserving : s.serving = false) :
      Step Answers s .outside { s with fromDevice := s.fromDevice ++ [.last] }

def system (Answers : PtyCompleteRequest → PtyCompleteResult → Prop) : System State Action where
  init := fun s => s = .initial (.reading []) ∨ s = .initial .piped
  step := Step Answers

/-! The completion that is asked for. -/

def Event.ask : Event → Option (PtyCompleteRequest × Nat)
  | .complete request reply => some (request, reply)
  | _ => none

def Client.pending : Client → Option Nat
  | .running completionReply => completionReply
  | .finished => none

def Outgoing.request : Outgoing → Option PtyCompleteRequest
  | .complete request => some request
  | _ => none

def Incoming.answer : Incoming → Option PtyCompleteResult
  | .result answer => some answer
  | _ => none

def Reader.waitsFor : Reader → Option (Nat × Text)
  | .waiting reply line => some (reply, line)
  | _ => none

/-- All that is under way between the reader and the device because of a completion. -/
structure Desk where
  asks : List (PtyCompleteRequest × Nat)
  pending : Option Nat
  requests : List PtyCompleteRequest
  answers : List PtyCompleteResult

def State.desk (s : State) : Desk where
  asks := s.events.filterMap Event.ask
  pending := s.client.pending
  requests := s.toDevice.filterMap Outgoing.request
  answers := s.fromDevice.filterMap Incoming.answer

/-- The one completion that is under way is in one place. -/
inductive Placed (Answers : PtyCompleteRequest → PtyCompleteResult → Prop) (s : State) : Prop
  | idle (hwait : s.reader.waitsFor = none) (hdesk : s.desk = ⟨[], none, [], []⟩)
  | queued {reply : Nat} {line : Text} (hwait : s.reader.waitsFor = some (reply, line))
      (hdesk : s.desk = ⟨[(requestOf line, reply)], none, [], []⟩)
      (hreply : s.replies reply = none)
  | asking {reply : Nat} {line : Text} (hwait : s.reader.waitsFor = some (reply, line))
      (hdesk : s.desk = ⟨[], some reply, [requestOf line], []⟩) (hreply : s.replies reply = none)
  | unanswered {reply : Nat} {line : Text} (hwait : s.reader.waitsFor = some (reply, line))
      (hdesk : s.desk = ⟨[], some reply, [], []⟩) (hreply : s.replies reply = none)
      (hserving : s.serving = false)
  | answering {reply : Nat} {line : Text} {result : PtyCompleteResult}
      (hwait : s.reader.waitsFor = some (reply, line))
      (hdesk : s.desk = ⟨[], some reply, [], [result]⟩) (hreply : s.replies reply = none)
      (hanswers : Answers (requestOf line) result)
  | replied {reply : Nat} {line : Text} {result : PtyCompleteResult}
      (hwait : s.reader.waitsFor = some (reply, line)) (hdesk : s.desk = ⟨[], none, [], []⟩)
      (hreply : s.replies reply = some (some result))

structure Kept (Answers : PtyCompleteRequest → PtyCompleteResult → Prop) (s : State) : Prop where
  closed : s.client = .finished → s.events = []
  placed : s.client ≠ .finished → Placed Answers s
  answered : ∀ {reply line result}, s.reader.waitsFor = some (reply, line) →
    s.replies reply = some (some result) → Answers (requestOf line) result
  given : ∀ {reply line}, s.reader.waitsFor = some (reply, line) → reply < s.asked
  fresh : ∀ reply, s.asked ≤ reply → s.replies reply = none
  fits : ∀ {keep}, s.reader = .reading keep → keep.length < bufferChars

section Completions

variable {Answers : PtyCompleteRequest → PtyCompleteResult → Prop} {s t : State} {a : Action}

theorem Placed.congr (h : Placed Answers s) (hreader : t.reader = s.reader)
    (hdesk : t.desk = s.desk) (hreplies : t.replies = s.replies)
    (hserving : s.serving = false → t.serving = false) : Placed Answers t := by
  cases h with
  | idle hwait hs => exact .idle (hreader ▸ hwait) (hdesk.trans hs)
  | queued hwait hs hreply => exact .queued (hreader ▸ hwait) (hdesk.trans hs) (hreplies ▸ hreply)
  | asking hwait hs hreply => exact .asking (hreader ▸ hwait) (hdesk.trans hs) (hreplies ▸ hreply)
  | unanswered hwait hs hreply hlost =>
      exact .unanswered (hreader ▸ hwait) (hdesk.trans hs) (hreplies ▸ hreply) (hserving hlost)
  | answering hwait hs hreply hanswers =>
      exact .answering (hreader ▸ hwait) (hdesk.trans hs) (hreplies ▸ hreply) hanswers
  | replied hwait hs hreply =>
      exact .replied (hreader ▸ hwait) (hdesk.trans hs) (hreplies ▸ hreply)

theorem Kept.moves (h : Kept Answers s) (hreader : t.reader = s.reader)
    (hclient : t.client = s.client) (hclosed : s.events = [] → s.client = .finished → t.events = [])
    (hplaced : s.client ≠ .finished → Placed Answers s → Placed Answers t)
    (hreplies : t.replies = s.replies) (hasked : t.asked = s.asked) : Kept Answers t where
  closed hover := hclosed (h.closed (hclient ▸ hover)) (hclient ▸ hover)
  placed hrunning := hplaced (hclient ▸ hrunning) (h.placed (hclient ▸ hrunning))
  answered hwait hreply := h.answered (hreader ▸ hwait) (hreplies ▸ hreply)
  given hwait := hasked ▸ h.given (hreader ▸ hwait)
  fresh reply hreply := hreplies ▸ h.fresh reply (hasked ▸ hreply)
  fits hreading := h.fits (hreader ▸ hreading)

theorem Kept.congr (h : Kept Answers s) (hreader : t.reader = s.reader)
    (hclient : t.client = s.client) (hclosed : s.events = [] → s.client = .finished → t.events = [])
    (hdesk : t.desk = s.desk) (hreplies : t.replies = s.replies) (hasked : t.asked = s.asked)
    (hserving : s.serving = false → t.serving = false) : Kept Answers t :=
  h.moves hreader hclient hclosed
    (fun _ hplaced => hplaced.congr hreader hdesk hreplies hserving) hreplies hasked

theorem Kept.settles (h : Kept Answers s) (hclient : t.client = s.client)
    (hclosed : s.events = [] → s.client = .finished → t.events = [])
    (hwait : t.reader.waitsFor = none)
    (hdesk : s.client ≠ .finished → t.desk = ⟨[], none, [], []⟩) (hreplies : t.replies = s.replies)
    (hasked : t.asked = s.asked)
    (hfits : ∀ {keep}, t.reader = .reading keep → keep.length < bufferChars) :
    Kept Answers t where
  closed hover := hclosed (h.closed (hclient ▸ hover)) (hclient ▸ hover)
  placed hrunning := .idle hwait (hdesk (hclient ▸ hrunning))
  answered hother := absurd (hwait.symm.trans hother) (by simp)
  given hother := absurd (hwait.symm.trans hother) (by simp)
  fresh reply hreply := hreplies ▸ h.fresh reply (hasked ▸ hreply)
  fits := hfits

theorem Placed.pending_waits (h : Placed Answers s) {reply : Nat}
    (hclient : s.client = .running (some reply)) :
    ∃ line, s.reader.waitsFor = some (reply, line) ∧ s.desk.asks = [] := by
  have hpending : s.desk.pending = some reply := by rw [State.desk, hclient, Client.pending]
  cases h with
  | idle _ hs | queued _ hs _ | replied _ hs _ =>
      rw [hs] at hpending
      cases hpending
  | asking hwait hs _ | unanswered hwait hs _ _ | answering hwait hs _ _ =>
      rw [hs] at hpending ⊢
      cases hpending
      exact ⟨_, hwait, rfl⟩

theorem Kept.pending_lt (h : Kept Answers s) {reply : Nat}
    (hclient : s.client = .running (some reply)) : reply < s.asked := by
  obtain ⟨line, hwait, -⟩ := (h.placed (by simp [hclient])).pending_waits hclient
  exact h.given hwait

theorem Kept.over (h : Kept Answers s) (hreader : t.reader = s.reader)
    (hclient : t.client = .finished) (hevents : t.events = []) (hasked : t.asked = s.asked)
    (hreplies : t.replies = s.replies ∨ ∃ reply, s.client = .running (some reply) ∧
      t.replies = Function.update s.replies reply (some none)) : Kept Answers t where
  closed _ := hevents
  placed hrunning := absurd hclient hrunning
  answered {reply line result} hwait hreply := by
    refine h.answered (hreader ▸ hwait) ?_
    rcases hreplies with heq | ⟨pending, -, heq⟩
    · exact heq ▸ hreply
    · rw [heq, Function.update_apply] at hreply
      split at hreply
      · cases hreply
      · exact hreply
  given hwait := hasked ▸ h.given (hreader ▸ hwait)
  fresh reply hfresh := by
    have hnone := h.fresh reply (hasked ▸ hfresh)
    rcases hreplies with heq | ⟨pending, hclient, heq⟩
    · exact heq ▸ hnone
    · have hlt := h.pending_lt hclient
      rw [heq, Function.update_of_ne (by omega)]
      exact hnone
  fits hreading := h.fits (hreader ▸ hreading)

theorem desk_send {event : Event} (hclosed : s.client = .finished → s.events = [])
    (hask : event.ask = none) : (s.send event).desk = s.desk := by
  unfold State.send State.desk
  split
  · rename_i hover
    rw [hclosed hover]
  · simp [hask]

theorem closed_send {event : Event} (h : s.client = .finished) : (s.send event).events = [] :=
  if_pos h

theorem Kept.finish (h : Kept Answers s) (hreader : t.reader = s.reader)
    (hclient : t.client = s.client) (hasked : t.asked = s.asked)
    (hreplies : t.replies = s.replies) : Kept Answers t.finish := by
  refine h.over hreader rfl rfl hasked ?_
  unfold State.finish
  rw [← hclient, ← hreplies]
  split
  · rename_i reply hpending
    exact .inr ⟨reply, hpending, rfl⟩
  · exact .inl rfl

theorem Kept.clear (h : Kept Answers s) (hrunning : s.client ≠ .finished)
    (hwait : ∀ {reply line}, s.reader.waitsFor = some (reply, line) →
      ∃ result, s.replies reply = some result) : s.desk = ⟨[], none, [], []⟩ := by
  cases h.placed hrunning with
  | idle _ hdesk | replied _ hdesk _ => exact hdesk
  | queued hs _ hreply | asking hs _ hreply | unanswered hs _ hreply _ | answering hs _ hreply _ =>
      obtain ⟨result, hresult⟩ := hwait hs
      rw [hreply] at hresult
      cases hresult

theorem Kept.reads (h : Kept Answers s) (reader : Reader)
    (hwait : ∀ {reply line}, s.reader.waitsFor = some (reply, line) →
      ∃ result, s.replies reply = some result)
    (hreader : reader.waitsFor = none)
    (hfits : ∀ {keep}, reader = .reading keep → keep.length < bufferChars) :
    Kept Answers { s with reader := reader } :=
  h.settles rfl (fun hnil _ => hnil) hreader (fun hrunning => h.clear hrunning hwait) rfl rfl hfits

theorem Kept.send (h : Kept Answers s) (event : Event) (hask : event.ask = none) :
    Kept Answers (s.send event) :=
  h.congr rfl rfl (fun _ hover => closed_send hover) (desk_send h.closed hask) rfl rfl id

theorem Kept.keepLine {message : String} {line : Text} (h : Kept Answers s)
    (hwait : ∀ {reply line}, s.reader.waitsFor = some (reply, line) →
      ∃ result, s.replies reply = some result) : Kept Answers (s.keepLine message line) := by
  unfold State.keepLine
  split
  · exact (h.send _ rfl).reads _ hwait rfl nofun
  · rename_i hlt
    refine h.reads _ hwait rfl ?_
    rintro keep ⟨⟩
    exact Nat.lt_of_not_le hlt

theorem Kept.ask {line : Text} (h : Kept Answers s) (hwait : s.reader.waitsFor = none) :
    Kept Answers { s.send (.complete (requestOf line) s.asked) with
      reader := .waiting s.asked line, asked := s.asked + 1 } where
  closed hover := closed_send (s := s) hover
  placed hrunning := by
    replace hrunning : s.client ≠ .finished := hrunning
    have hdesk := h.clear hrunning fun hother => absurd (hwait.symm.trans hother) (by simp)
    simp only [State.desk, Desk.mk.injEq] at hdesk
    refine .queued rfl ?_ (h.fresh _ (le_refl _))
    simp [State.desk, State.send, hrunning, Event.ask, hdesk]
  answered hwaits hreply := by
    cases hwaits
    exact absurd ((h.fresh s.asked (le_refl _)).symm.trans hreply) (by simp)
  given hwaits := by
    cases hwaits
    exact Nat.lt_succ_self _
  fresh reply hreply := h.fresh reply (Nat.le_of_succ_le hreply)
  fits := nofun

theorem Kept.forward {cause : Cause} {rest : List Event} {pending : Option Nat}
    (h : Kept Answers s) (hclient : s.client = .running pending)
    (hasks : rest.filterMap Event.ask = s.events.filterMap Event.ask)
    (hrequest : cause.frame.request = none) : Kept Answers (s.forward cause rest) := by
  refine h.congr rfl rfl (fun _ hover => ?_) ?_ rfl rfl id
  · rw [hclient] at hover
    cases hover
  · simp [State.desk, State.forward, hasks, hrequest]

theorem Kept.takeComplete {request : PtyCompleteRequest} {reply : Nat} {rest : List Event}
    (h : Kept Answers s) (hclient : s.client = .running none)
    (hevents : s.events = .complete request reply :: rest) :
    Kept Answers { s.forward (.complete request) rest with client := .running (some reply) } := by
  have hasks : s.desk.asks = (request, reply) :: rest.filterMap Event.ask := by
    simp [State.desk, hevents, Event.ask]
  have hplaced := h.placed (by simp [hclient])
  cases hplaced with
  | idle _ hdesk | asking _ hdesk _ | unanswered _ hdesk _ _ | answering _ hdesk _ _
  | replied _ hdesk _ =>
      rw [hdesk] at hasks
      cases hasks
  | queued hwait hdesk hreply =>
      have hrest := hdesk
      rw [hdesk, List.cons.injEq, Prod.mk.injEq] at hasks
      obtain ⟨⟨rfl, rfl⟩, hnil⟩ := hasks
      simp only [State.desk, Desk.mk.injEq] at hrest
      refine ⟨nofun, fun _ => .asking hwait ?_ hreply, h.answered, h.given, h.fresh, h.fits⟩
      simp [State.desk, State.forward, Client.pending, Cause.frame, Outgoing.request, hrest, ← hnil]

theorem Kept.not_refused {pending : Nat} {request : PtyCompleteRequest} {reply : Nat}
    {rest : List Event} (h : Kept Answers s) (hclient : s.client = .running (some pending)) :
    s.events ≠ .complete request reply :: rest := by
  intro hevents
  obtain ⟨-, -, hasks⟩ := (h.placed (by simp [hclient])).pending_waits hclient
  simp [State.desk, hevents, Event.ask] at hasks

theorem Kept.takeResult {reply : Nat} {result : PtyCompleteResult} {rest : List Incoming}
    (h : Kept Answers s) (hclient : s.client = .running (some reply))
    (hframes : s.fromDevice = .result result :: rest) :
    Kept Answers { s with
      fromDevice := rest, client := .running none
      replies := Function.update s.replies reply (some (some result)) } := by
  have hanswer : s.desk.answers = result :: rest.filterMap Incoming.answer := by
    simp [State.desk, hframes, Incoming.answer]
  have hpending : s.desk.pending = some reply := by simp [State.desk, hclient, Client.pending]
  have hlt := h.pending_lt hclient
  have hplaced := h.placed (by simp [hclient])
  cases hplaced with
  | idle _ hdesk | queued _ hdesk _ | asking _ hdesk _ | unanswered _ hdesk _ _
  | replied _ hdesk _ =>
      rw [hdesk] at hanswer
      cases hanswer
  | @answering other line made hwait hdesk hreply hanswers =>
      have hrest := hdesk
      rw [hdesk] at hanswer hpending
      simp only [List.cons.injEq, Option.some.injEq] at hanswer hpending
      obtain ⟨rfl, hnil⟩ := hanswer
      subst hpending
      simp only [State.desk, Desk.mk.injEq] at hrest
      refine ⟨nofun, fun _ => .replied hwait ?_ (Function.update_self ..), ?_, h.given, ?_, h.fits⟩
      · simp [State.desk, Client.pending, hrest, ← hnil]
      · intro asked text answer hwaits hmade
        obtain ⟨rfl, rfl⟩ : asked = other ∧ text = line := by
          simpa using hwaits.symm.trans hwait
        have hsame : Function.update s.replies asked (some (some made)) asked =
          some (some answer) := hmade
        rw [Function.update_self] at hsame
        cases hsame
        exact hanswers
      · intro fresh hfresh
        have hne : fresh ≠ other := (Nat.lt_of_lt_of_le hlt hfresh).ne'
        exact (Function.update_of_ne hne ..).trans (h.fresh fresh hfresh)

theorem Kept.not_ignored {result : PtyCompleteResult} {rest : List Incoming}
    (h : Kept Answers s) (hclient : s.client = .running none) :
    s.fromDevice ≠ .result result :: rest := by
  intro hframes
  have hanswer : s.desk.answers = result :: rest.filterMap Incoming.answer := by
    simp [State.desk, hframes, Incoming.answer]
  have hpending : s.desk.pending = none := by simp [State.desk, hclient, Client.pending]
  cases h.placed (by simp [hclient]) with
  | idle _ hdesk | queued _ hdesk _ | asking _ hdesk _ | unanswered _ hdesk _ _
  | replied _ hdesk _ =>
      rw [hdesk] at hanswer
      cases hanswer
  | answering _ hdesk _ _ =>
      rw [hdesk] at hpending
      cases hpending

theorem desk_takeUp {frame : Outgoing} {rest : List Outgoing} (hframes : s.toDevice = frame :: rest)
    (hrequest : frame.request = none) : (s.takeUp frame rest).desk = s.desk := by
  simp [State.desk, State.takeUp, hframes, hrequest]

theorem Placed.takeUp {request : PtyCompleteRequest} {rest : List Outgoing}
    (h : Placed Answers s) (hframes : s.toDevice = .complete request :: rest) :
    ∃ reply line, s.reader.waitsFor = some (reply, line) ∧ request = requestOf line ∧
      s.replies reply = none ∧
      (s.takeUp (.complete request) rest).desk = ⟨[], some reply, [], []⟩ := by
  have hrequests : s.desk.requests = request :: rest.filterMap Outgoing.request := by
    simp [State.desk, hframes, Outgoing.request]
  cases h with
  | idle _ hdesk | queued _ hdesk _ | unanswered _ hdesk _ _ | answering _ hdesk _ _
  | replied _ hdesk _ =>
      rw [hdesk] at hrequests
      cases hrequests
  | @asking reply line hwait hdesk hreply =>
      have hrest := hdesk
      rw [hdesk, List.cons.injEq] at hrequests
      obtain ⟨rfl, hnil⟩ := hrequests
      simp only [State.desk, Desk.mk.injEq] at hrest
      refine ⟨reply, line, hwait, rfl, hreply, ?_⟩
      simp [State.desk, State.takeUp, hrest, ← hnil]

theorem Kept.step (h : Kept Answers s) (hstep : Step Answers s a t) : Kept Answers t := by
  have hidle {reader : Reader} (hreader : s.reader = reader) (hnone : reader.waitsFor = none) :
      ∀ {reply line}, s.reader.waitsFor = some (reply, line) →
        ∃ result, s.replies reply = some result := by
    intro reply line hwait
    rw [hreader, hnone] at hwait
    cases hwait
  have hmade {asked : Nat} {text : Text} {result : Option PtyCompleteResult}
      (hreader : s.reader = .waiting asked text) (hreply : s.replies asked = some result) :
      ∀ {reply line}, s.reader.waitsFor = some (reply, line) →
        ∃ result, s.replies reply = some result := by
    intro reply line hwait
    rw [hreader] at hwait
    cases hwait
    exact ⟨result, hreply⟩
  cases hstep with
  | readerStops hreader _ => exact h.reads _ (hidle hreader rfl) rfl nofun
  | readerFull hreader _ => exact (h.send _ rfl).reads _ (hidle hreader rfl) rfl nofun
  | readFails _ hreader => exact (h.send _ rfl).reads _ (hidle hreader rfl) rfl nofun
  | edit front back hreader _ _ _ => exact h.keepLine (hidle hreader rfl)
  | ask front hreader _ _ => exact h.ask (by simp [hreader, Reader.waitsFor])
  | submit typed hreader _ _ _ =>
      have hempty : ∀ {keep}, Reader.reading [] = .reading keep → keep.length < bufferChars := by
        rintro keep ⟨⟩
        decide
      have hsent := h.send (.input (normalizeConsoleLine (intoBytes (fromUtf16Lossy typed)))) rfl
      exact (hsent.reads _ (hidle hreader rfl) rfl hempty).congr rfl rfl (fun hnil _ => hnil)
        rfl rfl rfl id
  | sendFails hreader _ => exact h.reads _ (hidle hreader rfl) rfl nofun
  | answered hreader hreply => exact h.keepLine (hmade hreader hreply)
  | showFails _ hreader hreply => exact (h.send _ rfl).reads _ (hmade hreader hreply) rfl nofun
  | refused hreader hreply => exact h.reads _ (hmade hreader hreply) rfl nofun
  | dropped hreader hreply hclient =>
      exact h.settles rfl (fun hnil _ => hnil) rfl (absurd hclient) rfl rfl nofun
  | pipedLine line hreader =>
      have hsent := h.send (.input (normalizeConsoleLine line)) rfl
      exact hsent.congr rfl rfl (fun hnil _ => hnil) rfl rfl rfl id
  | pipedEnds hreader => exact (h.send _ rfl).reads _ (hidle hreader rfl) rfl nofun
  | pipedFails _ hreader => exact (h.send _ rfl).reads _ (hidle hreader rfl) rfl nofun
  | pipedStops hreader _ => exact h.reads _ (hidle hreader rfl) rfl nofun
  | resize cols rows => exact h.send _ rfl
  | takeInput hclient hevents | takeResize hclient hevents =>
      refine h.forward hclient ?_ rfl
      rw [hevents, List.filterMap_cons_none rfl]
  | takeComplete hclient hevents => exact h.takeComplete hclient hevents
  | refuse hclient hevents => exact absurd hevents (h.not_refused hclient)
  | takeError _ _ => exact h.finish rfl rfl rfl rfl
  | takeEof _ _ => exact h.finish rfl rfl rfl rfl
  | interrupt hclient => exact h.forward hclient rfl rfl
  | fails _ => exact h.over rfl rfl rfl rfl (.inl rfl)
  | lost _ => exact h.finish rfl rfl rfl rfl
  | takeOutput hclient hframes =>
      refine h.congr rfl rfl (fun hnil _ => hnil) ?_ rfl rfl id
      rw [State.desk, State.desk, hframes, List.filterMap_cons_none rfl]
  | takeResult hclient hframes => exact h.takeResult hclient hframes
  | ignoreResult hclient hframes => exact absurd hframes (h.not_ignored hclient)
  | takeLast _ _ => exact h.finish rfl rfl rfl rfl
  | @deviceTakes frame _ _ hframes hframe =>
      have hrequest : frame.request = none := by
        cases frame with
        | complete request => exact absurd rfl (hframe.2 request)
        | input | resize | close => rfl
      exact h.congr rfl rfl (fun hnil _ => hnil) (desk_takeUp hframes hrequest) rfl rfl id
  | @deviceAnswers request result _ _ hframes hanswers =>
      refine h.moves rfl rfl (fun hnil _ => hnil) (fun _ hplaced => ?_) rfl rfl
      obtain ⟨reply, line, hwait, rfl, hreply, hdesk⟩ := hplaced.takeUp hframes
      refine .answering hwait ?_ hreply hanswers
      simp only [State.desk, State.takeUp, Desk.mk.injEq] at hdesk ⊢
      refine ⟨hdesk.1, hdesk.2.1, hdesk.2.2.1, ?_⟩
      rw [List.filterMap_append, hdesk.2.2.2]
      rfl
  | deviceCloses _ hframes =>
      exact h.congr rfl rfl (fun hnil _ => hnil) (desk_takeUp hframes rfl) rfl rfl fun _ => rfl
  | @deviceFails frame _ _ hframes =>
      cases hrequest : frame.request with
      | none =>
          exact h.congr rfl rfl (fun hnil _ => hnil) (desk_takeUp hframes hrequest) rfl rfl
            fun _ => rfl
      | some request =>
          refine h.moves rfl rfl (fun hnil _ => hnil) (fun _ hplaced => ?_) rfl rfl
          cases frame with
          | complete request =>
              obtain ⟨reply, line, hwait, rfl, hreply, hdesk⟩ := hplaced.takeUp hframes
              exact .unanswered hwait hdesk hreply rfl
          | input | resize | close => cases hrequest
  | deviceOutput bytes =>
      exact h.congr rfl rfl (fun hnil _ => hnil) (by simp [State.desk, Incoming.answer]) rfl rfl id
  | shellEnds => exact h.congr rfl rfl (fun hnil _ => hnil) rfl rfl rfl fun _ => rfl
  | deviceEnds _ =>
      exact h.congr rfl rfl (fun hnil _ => hnil) (by simp [State.desk, Incoming.answer]) rfl rfl id

theorem kept (h : (system Answers).Reachable s) : Kept Answers s := by
  refine h.invariant ?_ fun s a t hs hstep => hs.step hstep
  rintro s (rfl | rfl)
  · exact ⟨fun _ => rfl, fun _ => .idle rfl rfl, nofun, nofun, fun _ _ => rfl,
      by rintro keep ⟨⟩; decide⟩
  · exact ⟨fun _ => rfl, fun _ => .idle rfl rfl, nofun, nofun, fun _ _ => rfl, nofun⟩

theorem waitsFor_eq_some {reader : Reader} {reply : Nat} {line : Text} :
    reader.waitsFor = some (reply, line) ↔ reader = .waiting reply line := by
  cases reader <;> simp [Reader.waitsFor]

/-- The answer that a waiting reader gets is one to its own line. While the client goes on, at
most one completion is under way, and none when the reader does not wait for it. So a client that
has a completion pending is not asked for another, a client that has none gets no result, and the
line that the reader keeps always leaves room in its buffer. -/
theorem completions_sound (h : (system Answers).Reachable s) :
    (∀ reply line result, s.reader = .waiting reply line →
        s.replies reply = some (some result) → Answers (requestOf line) result) ∧
      (s.client ≠ .finished →
        s.desk.asks.length + s.desk.requests.length + s.desk.answers.length ≤ 1 ∧
        ((∀ reply line, s.reader ≠ .waiting reply line) → s.desk = ⟨[], none, [], []⟩) ∧
        (∀ reply, s.desk.pending = some reply →
          s.desk.asks = [] ∧ ∃ line, s.reader = .waiting reply line) ∧
        (s.desk.pending = none → s.desk.answers = [])) ∧
      ∀ keep, s.reader = .reading keep → keep.length < bufferChars := by
  have hs := kept h
  have hwaits {reply : Nat} {line : Text} (hwait : s.reader.waitsFor = some (reply, line)) :
      ¬ ∀ reply line, s.reader ≠ .waiting reply line := fun hnot =>
    hnot reply line (waitsFor_eq_some.mp hwait)
  refine ⟨fun reply line result hreader => hs.answered (waitsFor_eq_some.mpr hreader),
    fun hrunning => ?_, fun keep => hs.fits⟩
  cases hs.placed hrunning with
  | idle hwait hdesk =>
      rw [hdesk]
      exact ⟨by simp, fun _ => rfl, nofun, fun _ => rfl⟩
  | queued hwait hdesk _ =>
      rw [hdesk]
      exact ⟨by simp, fun hnot => absurd hnot (hwaits hwait), nofun, fun _ => rfl⟩
  | asking hwait hdesk _ | unanswered hwait hdesk _ _ =>
      rw [hdesk]
      refine ⟨by simp, fun hnot => absurd hnot (hwaits hwait), ?_, fun _ => rfl⟩
      rintro _ ⟨⟩
      exact ⟨rfl, _, waitsFor_eq_some.mp hwait⟩
  | answering hwait hdesk _ _ =>
      rw [hdesk]
      refine ⟨by simp, fun hnot => absurd hnot (hwaits hwait), ?_, nofun⟩
      rintro _ ⟨⟩
      exact ⟨rfl, _, waitsFor_eq_some.mp hwait⟩
  | replied hwait hdesk _ =>
      rw [hdesk]
      exact ⟨by simp, fun hnot => absurd hnot (hwaits hwait), nofun, fun _ => rfl⟩

/-- A device that has nothing to add. -/
def echoes (request : PtyCompleteRequest) (result : PtyCompleteResult) : Prop :=
  result = ⟨request.line, request.cursor, [], 0⟩

theorem completions_sound_one : ∃ s result, (system echoes).Reachable s ∧
    s.replies 0 = some (some result) ∧ echoes (requestOf ['l']) result := by
  obtain ⟨s, h, hreader, result, hreply⟩ : ∃ s, (system echoes).Reachable s ∧
      s.reader = .waiting 0 ['l'] ∧ ∃ result, s.replies 0 = some (some result) :=
    ⟨_, ⟨.initial (.reading []), .inl rfl,
      System.Leads.head (.ask [108] rfl (by decide) (by decide)) <|
      System.Leads.head (.takeComplete rfl rfl) <|
      System.Leads.head (.deviceAnswers rfl rfl rfl) <|
      System.Leads.single (.takeResult rfl rfl)⟩, rfl, _, rfl⟩
  exact ⟨s, result, h, hreply, (completions_sound h).1 0 ['l'] result hreader hreply⟩

end Completions

/-! The lines that are submitted. -/

def Event.line : Event → Option Bytes
  | .input bytes => some bytes
  | _ => none

def Cause.line : Cause → Option Bytes
  | .input bytes => some bytes
  | _ => none

/-- The lines that the client has sent on, without its interrupts. -/
def State.sentLines (s : State) : List Bytes := s.sent.filterMap Cause.line

structure Carried (s : State) : Prop where
  frames : s.received ++ s.toDevice = s.sent.map Cause.frame
  unclosed : s.client ≠ .finished → Cause.eof ∉ s.sent
  lines : s.client ≠ .finished →
    s.sentLines ++ s.events.filterMap Event.line = s.submitted.map normalizeConsoleLine
  behind : s.sentLines <+: s.submitted.map normalizeConsoleLine

section Lines

variable {Answers : PtyCompleteRequest → PtyCompleteResult → Prop} {s t : State} {a : Action}

theorem Carried.congr (h : Carried s) (hclient : t.client ≠ .finished → s.client ≠ .finished)
    (hevents : t.client ≠ .finished →
      t.events.filterMap Event.line = s.events.filterMap Event.line)
    (hsent : t.sent = s.sent) (hsubmitted : t.submitted = s.submitted)
    (hframes : t.received ++ t.toDevice = s.received ++ s.toDevice) : Carried t where
  frames := hframes.trans (h.frames.trans (hsent ▸ rfl))
  unclosed hrunning := hsent ▸ h.unclosed (hclient hrunning)
  lines hrunning := by
    rw [State.sentLines, hsent, hevents hrunning, hsubmitted]
    exact h.lines (hclient hrunning)
  behind := by
    rw [State.sentLines, hsent, hsubmitted]
    exact h.behind

theorem Carried.send (h : Carried s) {event : Event} (hline : event.line = none) :
    Carried (s.send event) := by
  refine h.congr id (fun hrunning => ?_) rfl rfl rfl
  replace hrunning : s.client ≠ .finished := hrunning
  simp [State.send, hrunning, hline]

theorem Carried.reads (h : Carried s) (reader : Reader) : Carried { s with reader := reader } :=
  h.congr id (fun _ => rfl) rfl rfl rfl

theorem Carried.keepLine (h : Carried s) {message : String} {line : Text} :
    Carried (s.keepLine message line) := by
  unfold State.keepLine
  split
  · exact (h.send rfl).reads _
  · exact h.reads _

theorem Carried.submit (h : Carried s) (line : Bytes) :
    Carried { s.send (.input (normalizeConsoleLine line)) with
      submitted := s.submitted ++ [line] } where
  frames := h.frames
  unclosed := h.unclosed
  lines hrunning := by
    replace hrunning : s.client ≠ .finished := hrunning
    have hlines := h.lines hrunning
    simp only [State.sentLines] at hlines
    simp [State.sentLines, State.send, hrunning, Event.line, ← hlines]
  behind := by
    rw [List.map_append]
    exact h.behind.trans (List.prefix_append _ _)

theorem Carried.forward (h : Carried s) {cause : Cause} {rest : List Event} {pending : Option Nat}
    (hclient : s.client = .running pending) (hcause : cause ≠ .eof)
    (hline : s.events.filterMap Event.line = cause.line.toList ++ rest.filterMap Event.line) :
    Carried (s.forward cause rest) := by
  have hrunning : s.client ≠ .finished := by simp [hclient]
  have hlines : (s.forward cause rest).sentLines ++ rest.filterMap Event.line =
      s.submitted.map normalizeConsoleLine := by
    rw [← h.lines hrunning, hline, ← List.append_assoc]
    simp [State.sentLines, State.forward, List.filterMap_append, List.filterMap_cons]
    cases cause.line <;> rfl
  refine ⟨?_, fun _ => ?_, fun _ => hlines, hlines ▸ List.prefix_append _ _⟩
  · simp [State.forward, ← h.frames]
  · have hunclosed := h.unclosed hrunning
    simpa [State.forward, hunclosed] using hcause.symm

theorem Carried.close (h : Carried s) {rest : List Event} :
    Carried (s.forward .eof rest).finish := by
  refine ⟨?_, absurd rfl, absurd rfl, ?_⟩
  · simp [State.finish, State.abort, State.forward, ← h.frames]
  · have hlines : (s.forward .eof rest).finish.sentLines = s.sentLines :=
      List.filterMap_append.trans (List.append_nil _)
    rw [hlines]
    exact h.behind

theorem Carried.step (h : Carried s) (hstep : Step Answers s a t) : Carried t := by
  cases hstep with
  | readerStops | sendFails | refused | dropped | pipedStops => exact h.reads _
  | readerFull | readFails | showFails | pipedEnds | pipedFails => exact (h.send rfl).reads _
  | edit | answered => exact h.keepLine
  | ask front => exact (h.send rfl).congr id (fun _ => rfl) rfl rfl rfl
  | submit typed =>
      exact (h.submit (intoBytes (fromUtf16Lossy typed))).congr id (fun _ => rfl) rfl rfl rfl
  | pipedLine line => exact h.submit line
  | resize => exact h.send rfl
  | takeInput hclient hevents | takeResize hclient hevents =>
      refine h.forward hclient nofun ?_
      rw [hevents]
      rfl
  | @takeComplete request reply rest hclient hevents =>
      have hsent : Carried (s.forward (.complete request) rest) := by
        refine h.forward hclient nofun ?_
        rw [hevents]
        rfl
      exact hsent.congr (fun _ => by simp [State.forward, hclient]) (fun _ => rfl) rfl rfl rfl
  | refuse hclient hevents =>
      refine h.congr id (fun _ => ?_) rfl rfl rfl
      rw [hevents]
      rfl
  | takeError | lost | takeLast | fails =>
      exact h.congr (absurd rfl) (absurd rfl) rfl rfl rfl
  | takeEof => exact h.close
  | interrupt hclient => exact h.forward hclient nofun rfl
  | takeOutput | ignoreResult => exact h.congr id (fun _ => rfl) rfl rfl rfl
  | takeResult hclient _ =>
      exact h.congr (fun _ => by simp [hclient]) (fun _ => rfl) rfl rfl rfl
  | deviceTakes _ hframes _ | deviceAnswers _ hframes _ | deviceCloses _ hframes
  | deviceFails _ hframes =>
      refine h.congr id (fun _ => rfl) rfl rfl ?_
      simp [State.takeUp, hframes]
  | deviceOutput | shellEnds | deviceEnds => exact h.congr id (fun _ => rfl) rfl rfl rfl

theorem carried (h : (system Answers).Reachable s) : Carried s := by
  refine h.invariant ?_ fun s a t hs hstep => hs.step hstep
  rintro s (rfl | rfl)
  all_goals exact ⟨rfl, fun _ => nofun, fun _ => rfl, List.prefix_refl _⟩

theorem Carried.close_not_mem (h : Carried s) (hrunning : s.client ≠ .finished) :
    Outgoing.close ∉ s.toDevice := by
  intro hmem
  have hsent : Outgoing.close ∈ s.sent.map Cause.frame :=
    h.frames ▸ List.mem_append_right _ hmem
  obtain ⟨cause, hcause, hframe⟩ := List.mem_map.mp hsent
  cases cause with
  | eof => exact h.unclosed hrunning hcause
  | input | resize | complete | interrupt => cases hframe

theorem normalizeConsoleLine_crlf (content : Bytes) :
    normalizeConsoleLine (content ++ [13, 10]) = content ++ [10] := by
  have hlast : (content ++ [13, 10]).getLast? = some 10 := by simp
  have hdrop : (content ++ [13, 10]).dropLast = content ++ [13] := by simp
  rw [normalizeConsoleLine, if_pos hlast, hdrop, if_pos List.getLast?_concat,
    List.dropLast_concat]

/-- What `ICRNL` makes of what is written to a terminal. -/
def icrnl (bytes : Bytes) : Bytes := bytes.map fun byte => if byte = 13 then 10 else byte

theorem icrnl_eq_self {bytes : Bytes} (h : 13 ∉ bytes) : icrnl bytes = bytes := by
  refine (List.map_congr_left fun byte hbyte => if_neg ?_).trans (List.map_id _)
  rintro rfl
  exact h hbyte

/-- What the terminal makes of lines that ended as the console ends them. -/
theorem icrnl_normalized {contents : List Bytes} (hcontents : ∀ content ∈ contents, 13 ∉ content) :
    icrnl ((contents.map (· ++ [13, 10])).map normalizeConsoleLine).flatten =
      contents.flatMap (· ++ [10]) := by
  have hline (content : Bytes) (hcontent : content ∈ contents) :
      (icrnl ∘ normalizeConsoleLine ∘ (· ++ [13, 10])) content = content ++ [10] := by
    have hfree : (13 : UInt8) ∉ content ++ [10] := by simp [hcontents content hcontent]
    simp only [Function.comp_apply, normalizeConsoleLine_crlf]
    exact icrnl_eq_self hfree
  rw [icrnl, List.map_flatten, List.map_map, List.map_map, List.flatMap_def]
  exact congrArg List.flatten (List.map_congr_left hline)

/-- What the device has taken up stands, in its order, for what the client has sent, and the lines
in it are the first of those that were submitted, each once and normalized; they are all of them
when nothing is under way. So the terminal, which makes a line feed of a carriage return, has of
lines that ended with both the same lines with one line feed each. -/
theorem lines_reach_device (h : (system Answers).Reachable s) :
    ∃ causes, causes <+: s.sent ∧ s.received = causes.map Cause.frame ∧
      causes.filterMap Cause.line <+: s.submitted.map normalizeConsoleLine ∧
      (s.client ≠ .finished → s.events = [] → s.toDevice = [] →
        causes.filterMap Cause.line = s.submitted.map normalizeConsoleLine) ∧
      ∀ contents : List Bytes, s.submitted = contents.map (· ++ [13, 10]) →
        (∀ content ∈ contents, 13 ∉ content) →
        icrnl (causes.filterMap Cause.line).flatten =
          (contents.take (causes.filterMap Cause.line).length).flatMap (· ++ [10]) := by
  obtain ⟨hframes, -, hlines, hbehind⟩ := carried h
  obtain ⟨causes, rest, hsent, hreceived, hrest⟩ := List.map_eq_append_iff.mp hframes.symm
  have hprefix_sent : causes <+: s.sent := hsent ▸ List.prefix_append _ _
  have hfirst : causes.filterMap Cause.line <+: s.submitted.map normalizeConsoleLine :=
    (hprefix_sent.filterMap _).trans hbehind
  refine ⟨causes, hprefix_sent, hreceived.symm, hfirst, fun hrunning hevents hqueue => ?_,
    fun contents hsubmitted hcontents => ?_⟩
  · have hall := hlines hrunning
    rw [hevents, List.filterMap_nil, List.append_nil] at hall
    have hnil : rest = [] := List.map_eq_nil_iff.mp (hrest.trans hqueue)
    rw [← hall, State.sentLines, hsent, hnil, List.append_nil]
  · rw [hsubmitted] at hfirst
    have htake := List.prefix_iff_eq_take.mp hfirst
    rw [← List.map_take, ← List.map_take] at htake
    exact (congrArg (fun lines => icrnl lines.flatten) htake).trans
      (icrnl_normalized fun content hcontent => hcontents content (List.mem_of_mem_take hcontent))

theorem lines_reach_device_one : ∃ s, (system fun _ _ => False).Reachable s ∧
    ∃ causes : List Cause, s.received = causes.map Cause.frame ∧
      causes.filterMap Cause.line = s.submitted.map normalizeConsoleLine ∧
      s.submitted = [[108, 115, 13, 10]] := by
  obtain ⟨s, h, hclient, hevents, hqueue, hsubmitted⟩ :
      ∃ s, (system fun _ _ => False).Reachable s ∧ s.client = .running none ∧ s.events = [] ∧
        s.toDevice = [] ∧ s.submitted = [[108, 115, 13, 10]] :=
    ⟨_, ⟨.initial (.reading []), .inl rfl,
      System.Leads.head (.submit [108, 115, 13, 10] rfl (nofun) (by decide) (by decide)) <|
      System.Leads.head (.takeInput rfl rfl) <|
      System.Leads.single (.deviceTakes rfl rfl ⟨nofun, nofun⟩)⟩, rfl, rfl, rfl, by decide⟩
  obtain ⟨causes, -, hreceived, -, hall, -⟩ := lines_reach_device h
  exact ⟨s, h, causes, hreceived, hall (by simp [hclient]) hevents hqueue, hsubmitted⟩

end Lines

/-! A wait for a completion ends. -/

/-- What is under way, each with its way to go. -/
def State.work (s : State) : Nat :=
  3 * s.events.length + 2 * s.toDevice.length + s.fromDevice.length

section Progress

variable {Answers : PtyCompleteRequest → PtyCompleteResult → Prop} {s t : State} {a : Action}
  {reply : Nat} {line : Text}

/-- The steps of the reader, the client and the device by themselves. -/
def proceeds (a : Action) : Prop := a ≠ .outside

/-- The reader has an answer to its line, which it ends with if that is too long for its buffer;
or it has ended because the client is gone. -/
def Ends (Answers : PtyCompleteRequest → PtyCompleteResult → Prop) (line : Text)
    (s : State) : Prop :=
  (∃ result, Answers (requestOf line) result ∧
    s.reader = if bufferChars ≤ (encodeUtf16 result.line).length then .ended
      else .reading (encodeUtf16 result.line)) ∨
    s.reader = .ended ∧ s.client = .finished

/-- The reader waits, and there is somebody left who may answer it. -/
structure Awaits (Answers : PtyCompleteRequest → PtyCompleteResult → Prop) (line : Text)
    (s : State) : Prop where
  kept : Kept Answers s
  carried : Carried s
  waits : ∃ reply, s.reader = .waiting reply line
  served : s.client = .finished ∨ s.serving = true

theorem ends_keepLine {message : String} {result : PtyCompleteResult}
    (hanswers : Answers (requestOf line) result) :
    Ends Answers line (s.keepLine message result.line) := by
  refine .inl ⟨result, hanswers, ?_⟩
  unfold State.keepLine
  split <;> rfl

/-- A reader that waits is refused an answer only by a client that leaves its loop. -/
theorem finished_of_refused (hs : Kept Answers s) (hreader : s.reader = .waiting reply line)
    (hreply : s.replies reply = some none) : s.client = .finished := by
  by_contra hrunning
  have hwait := waitsFor_eq_some.mpr hreader
  cases hs.placed hrunning with
  | idle hother =>
      rw [hwait] at hother
      cases hother
  | queued hother _ hnone | asking hother _ hnone | unanswered hother _ hnone
  | answering hother _ hnone =>
      rw [hwait] at hother
      cases hother
      exact nomatch hreply.symm.trans hnone
  | replied hother _ hsome =>
      rw [hwait] at hother
      cases hother
      exact nomatch hreply.symm.trans hsome

@[simp] theorem events_finish : s.finish.events = [] := rfl
@[simp] theorem toDevice_finish : s.finish.toDevice = s.toDevice := rfl
@[simp] theorem fromDevice_finish : s.finish.fromDevice = s.fromDevice := rfl

/-- A step of the client or the device takes something from what is under way. -/
theorem work_of_step (hstep : Step Answers s a t) (ha : a = .client ∨ a = .device) :
    t.reader = s.reader ∧ t.work < s.work := by
  cases hstep with
  | takeInput _ hevents | takeResize _ hevents | takeComplete _ hevents =>
      refine ⟨rfl, ?_⟩
      simp only [State.work, State.forward, hevents, List.length_cons, List.length_append,
        List.length_nil]
      omega
  | refuse _ hevents | takeError _ hevents => exact ⟨rfl, by simp [State.work, hevents]⟩
  | takeEof _ hevents =>
      refine ⟨rfl, ?_⟩
      simp only [State.work, State.forward, events_finish, toDevice_finish, fromDevice_finish,
        hevents, List.length_cons, List.length_append, List.length_nil]
      omega
  | takeOutput _ hframes | takeResult _ hframes | ignoreResult _ hframes =>
      exact ⟨rfl, by simp [State.work, hframes]⟩
  | takeLast _ hframes =>
      refine ⟨rfl, ?_⟩
      simp only [State.work, events_finish, toDevice_finish, fromDevice_finish, hframes,
        List.length_cons, List.length_nil]
      omega
  | deviceTakes _ hframes _ | deviceCloses _ hframes =>
      exact ⟨rfl, by simp [State.work, State.takeUp, hframes]⟩
  | deviceAnswers _ hframes _ =>
      refine ⟨rfl, ?_⟩
      simp only [State.work, State.takeUp, hframes, List.length_cons, List.length_append,
        List.length_nil]
      omega
  | _ => simp at ha

theorem served_of_step (hstep : Step Answers s a t) (ha : a = .client ∨ a = .device)
    (hserved : s.client = .finished ∨ s.serving = true)
    (hclose : s.client ≠ .finished → Outgoing.close ∉ s.toDevice) :
    t.client = .finished ∨ t.serving = true := by
  cases hstep with
  | takeError | takeEof | takeLast => exact .inl rfl
  | takeInput | takeResize | refuse | takeOutput | ignoreResult | deviceTakes | deviceAnswers =>
      exact hserved
  | takeComplete hclient _ | takeResult hclient _ =>
      rw [hclient] at hserved
      exact hserved.imp_left nofun
  | deviceCloses _ hframes =>
      refine .inl (by_contra fun hrunning => hclose hrunning ?_)
      rw [hframes]
      exact List.mem_cons_self
  | _ => simp at ha

theorem ends_of_reader (hs : Kept Answers s) (hreader : s.reader = .waiting reply line)
    (hstep : Step Answers s .reader t) : Ends Answers line t := by
  cases hstep with
  | readerStops hother _ | readerFull hother _ =>
      rw [hreader] at hother
      cases hother
  | answered hother hreply =>
      rw [hreader] at hother
      cases hother
      exact ends_keepLine (hs.answered (waitsFor_eq_some.mpr hreader) hreply)
  | refused hother hreply =>
      rw [hreader] at hother
      cases hother
      have hfinished := finished_of_refused hs hreader hreply
      exact .inr ⟨rfl, hfinished⟩
  | dropped _ _ hclient => exact .inr ⟨rfl, hclient⟩

theorem Awaits.step (h : Awaits Answers line s) (hstep : (system Answers).NextBy proceeds s t) :
    Ends Answers line t ∨ Awaits Answers line t ∧ t.work < s.work := by
  obtain ⟨reply, hreader⟩ := h.waits
  obtain ⟨a, ha, hstep⟩ := hstep
  have hgoes (hparty : a = .client ∨ a = .device) : Awaits Answers line t ∧ t.work < s.work := by
    obtain ⟨hsame, hless⟩ := work_of_step hstep hparty
    exact ⟨⟨h.kept.step hstep, h.carried.step hstep, ⟨reply, hsame.trans hreader⟩,
      served_of_step hstep hparty h.served h.carried.close_not_mem⟩, hless⟩
  cases a with
  | reader => exact .inl (ends_of_reader h.kept hreader hstep)
  | client => exact .inr (hgoes (.inl rfl))
  | device => exact .inr (hgoes (.inr rfl))
  | outside => exact absurd rfl ha

theorem client_takes_event {pending : Option Nat} (hclient : s.client = .running pending)
    {event : Event} {rest : List Event} (hevents : s.events = event :: rest) :
    ∃ t, Step Answers s .client t := by
  cases event with
  | input bytes => exact ⟨_, .takeInput hclient hevents⟩
  | resize cols rows => exact ⟨_, .takeResize hclient hevents⟩
  | complete request reply =>
      cases pending with
      | none => exact ⟨_, .takeComplete hclient hevents⟩
      | some pending => exact ⟨_, .refuse hclient hevents⟩
  | error message => exact ⟨_, .takeError hclient hevents⟩
  | eof => exact ⟨_, .takeEof hclient hevents⟩

theorem client_takes_frame {pending : Option Nat} (hclient : s.client = .running pending)
    {frame : Incoming} {rest : List Incoming} (hframes : s.fromDevice = frame :: rest) :
    ∃ t, Step Answers s .client t := by
  cases frame with
  | output bytes => exact ⟨_, .takeOutput hclient hframes⟩
  | result result =>
      cases pending with
      | none => exact ⟨_, .ignoreResult hclient hframes⟩
      | some pending => exact ⟨_, .takeResult hclient hframes⟩
  | last => exact ⟨_, .takeLast hclient hframes⟩

theorem device_takes_frame (htotal : ∀ request, ∃ result, Answers request result)
    (hserving : s.serving = true) {frame : Outgoing} {rest : List Outgoing}
    (hframes : s.toDevice = frame :: rest) : ∃ t, Step Answers s .device t := by
  cases frame with
  | input | resize => exact ⟨_, .deviceTakes hserving hframes ⟨nofun, nofun⟩⟩
  | complete request =>
      obtain ⟨result, hanswers⟩ := htotal request
      exact ⟨_, .deviceAnswers hserving hframes hanswers⟩
  | close => exact ⟨_, .deviceCloses hserving hframes⟩

theorem reader_takes_reply {result : Option PtyCompleteResult}
    (hreader : s.reader = .waiting reply line) (hreply : s.replies reply = some result) :
    ∃ t, Step Answers s .reader t := by
  cases result with
  | none => exact ⟨_, .refused hreader hreply⟩
  | some result => exact ⟨_, .answered hreader hreply⟩

/-- As long as the reader waits, one of the three has something to do. -/
theorem Awaits.next (h : Awaits Answers line s)
    (htotal : ∀ request, ∃ result, Answers request result) :
    ∃ t, (system Answers).NextBy proceeds s t := by
  obtain ⟨reply, hreader⟩ := h.waits
  have hwait := waitsFor_eq_some.mpr hreader
  have hby {a : Action} (ha : proceeds a) (hstep : ∃ t, Step Answers s a t) :
      ∃ t, (system Answers).NextBy proceeds s t := hstep.imp fun _ hstep => ⟨a, ha, hstep⟩
  cases hclient : s.client with
  | finished =>
      cases hreply : s.replies reply with
      | none => exact hby (a := .reader) nofun ⟨_, .dropped hreader hreply hclient⟩
      | some result => exact hby (a := .reader) nofun (reader_takes_reply hreader hreply)
  | running pending =>
      have hrunning : s.client ≠ .finished := by simp [hclient]
      have hserving := h.served.resolve_left hrunning
      cases h.kept.placed hrunning with
      | idle hnone _ =>
          rw [hnone] at hwait
          cases hwait
      | queued _ hdesk _ =>
          have hasks := congrArg Desk.asks hdesk
          obtain ⟨event, rest, hevents⟩ : ∃ event rest, s.events = event :: rest := by
            refine List.exists_cons_of_ne_nil fun hnil => ?_
            simp [State.desk, hnil] at hasks
          exact hby (a := .client) nofun (client_takes_event hclient hevents)
      | asking _ hdesk _ =>
          have hrequests := congrArg Desk.requests hdesk
          obtain ⟨frame, rest, hframes⟩ : ∃ frame rest, s.toDevice = frame :: rest := by
            refine List.exists_cons_of_ne_nil fun hnil => ?_
            simp [State.desk, hnil] at hrequests
          exact hby (a := .device) nofun (device_takes_frame htotal hserving hframes)
      | unanswered _ _ _ hlost =>
          rw [hserving] at hlost
          cases hlost
      | answering _ hdesk _ _ =>
          have hanswers := congrArg Desk.answers hdesk
          obtain ⟨frame, rest, hframes⟩ : ∃ frame rest, s.fromDevice = frame :: rest := by
            refine List.exists_cons_of_ne_nil fun hnil => ?_
            simp [State.desk, hnil] at hanswers
          exact hby (a := .client) nofun (client_takes_frame hclient hframes)
      | replied hother _ hreply =>
          rw [hwait] at hother
          cases hother
          exact hby (a := .reader) nofun (reader_takes_reply hreader hreply)

/-- A reader that waits for a completion waits only until the steps under way are done: in every
run of reader, client and device by themselves that goes on as long as it can, it has an answer
to its line after as many steps as `work` says and one more, or it has ended with the client. The
device has to serve, and to answer any request. -/
theorem wait_ends (h : (system Answers).Reachable s) (hreader : s.reader = .waiting reply line)
    (hserving : s.serving = true) (htotal : ∀ request, ∃ result, Answers request result)
    {run : Nat → State} (hrun : (system Answers).MaximalRun proceeds run) (hstart : run 0 = s) :
    ∃ n ≤ s.work + 1, Ends Answers line (run n) := by
  have hawaits : Awaits Answers line (run 0) :=
    hstart ▸ ⟨kept h, carried h, ⟨reply, hreader⟩, .inr hserving⟩
  obtain ⟨n, hn, hends⟩ := hrun.reaches (Ends Answers line)
    (fun s hs => hs.next htotal) (fun s t hs hstep => hs.step hstep) hawaits
  exact ⟨n, by simpa [hstart] using hn, hends⟩

theorem wait_ends_asked : ∃ s, ∃ run : Nat → State, (system echoes).Reachable s ∧ run 0 = s ∧
    ∃ n ≤ s.work + 1, Ends echoes ['l'] (run n) := by
  obtain ⟨s, h, hreader, hserving⟩ : ∃ s, (system echoes).Reachable s ∧
      s.reader = .waiting 0 ['l'] ∧ s.serving = true :=
    ⟨_, ⟨.initial (.reading []), .inl rfl,
      System.Leads.single (.ask [108] rfl (by decide) (by decide))⟩, rfl, rfl⟩
  obtain ⟨run, hrun, hstart⟩ := System.exists_maximalRun (M := system echoes) proceeds s
  exact ⟨s, run, h, hstart, wait_ends h hreader hserving (fun _ => ⟨_, rfl⟩) hrun hstart⟩

end Progress

end SideWire.LineClient
