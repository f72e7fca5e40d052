import SideWire.Base.ByteString
import SideWire.Base.TransitionSystem

/-!
The clipboard helper: the bytes that `exchange_io` and `runServer` exchange on the pipes of the
helper process, and the requests of one `ClipboardHelperManager`, one after another under its
lock. What the helper answers is left open.
-/

namespace SideWire.ClipboardHelper

open SideWire.TransitionSystem
open SideWire.ByteString

def opGet : UInt8 := 1
def opSet : UInt8 := 2
def opClear : UInt8 := 3
def statusOk : UInt8 := 0
def statusError : UInt8 := 1
def maxClipboardText : Nat := 4 * 1024 * 1024

structure Request where
  opcode : UInt8
  payload : Bytes
  deriving DecidableEq

/-- What the manager is asked for. -/
inductive Call
  | get
  | set (text : Bytes)
  | clear
  deriving DecidableEq

def Call.request : Call → Request
  | .get => ⟨opGet, []⟩
  | .set text => ⟨opSet, text⟩
  | .clear => ⟨opClear, []⟩

/-- What `exchange_io` writes. -/
def exchangeBytes (request : Request) : Except String Bytes :=
  if maxClipboardText < request.payload.length then
    .error "clipboard text exceeds 4 MiB limit"
  else .ok (request.opcode :: bigEndian 4 request.payload.length ++ request.payload)

/-! `ClipboardHelper.java` -/

def maxTextBytes : Nat := 4 * 1024 * 1024

/-- `DataInputStream.readInt`. -/
def readInt (bytes : Bytes) : Int :=
  if ofBigEndian bytes < 2 ^ 31 then ofBigEndian bytes else ofBigEndian bytes - 2 ^ 32

inductive Reading
  | more
  | refused
  | request (request : Request)
  deriving DecidableEq

/-- How far `runServer` comes with the bytes it has of a request. -/
def runServerReads : Bytes → Reading
  | [] => .more
  | operation :: bytes =>
      if bytes.length < 4 then .more
      else
        let length := readInt (bytes.take 4)
        if length < 0 ∨ maxTextBytes < length then .refused
        else if bytes.length < 4 + length.toNat then .more
        else .request ⟨operation, (bytes.drop 4).take length.toNat⟩

/-- The operation that `runServer` carries out. -/
def runServerCalls (request : Request) : Except String Call :=
  if request.opcode = 1 then
    if request.payload = [] then .ok .get else .error "GET payload must be empty"
  else if request.opcode = 2 then .ok (.set request.payload)
  else if request.opcode = 3 then
    if request.payload = [] then .ok .clear else .error "CLEAR payload must be empty"
  else .error ("unknown clipboard operation: " ++ toString request.opcode.toNat)

/-- The status and the array that `writeResponse` is called with. -/
structure Response where
  status : UInt8
  payload : Bytes
  fits : payload.length < 2 ^ 31

def responseBytes (response : Response) : Bytes :=
  response.status :: bigEndian 4 response.payload.length ++ response.payload

/-- `runServer` with the bytes of the request it is reading, or of the response that it still
has to write; `leaving` after a request that is too long. -/
inductive Helper
  | reading (bytes : Bytes)
  | answering (rest : Bytes)
  | leaving (rest : Bytes)
  | gone

/-- The helper process with the bytes in its pipes, the calls that it has been asked, and the
requests that it has read with its answers. -/
structure Process where
  helper : Helper
  stdin : Bytes
  stdout : Bytes
  asked : List Call
  answered : List (Request × Response)

def Process.started : Process := ⟨.reading [], [], [], [], []⟩

/-- What the helper does by itself. -/
inductive HelperMove : Process → Process → Prop
  | read {p : Process} {bytes stdin : Bytes} {byte : UInt8}
      (hmore : runServerReads (bytes ++ [byte]) = .more) :
      HelperMove { p with helper := .reading bytes, stdin := byte :: stdin }
        { p with helper := .reading (bytes ++ [byte]), stdin := stdin }
  | answer {p : Process} {bytes stdin : Bytes} {byte : UInt8} {request : Request}
      {response : Response}
      (hrequest : runServerReads (bytes ++ [byte]) = .request request) :
      HelperMove { p with helper := .reading bytes, stdin := byte :: stdin }
        { p with
          helper := .answering (responseBytes response), stdin := stdin,
          answered := p.answered ++ [(request, response)] }
  | refuse {p : Process} {bytes stdin : Bytes} {byte : UInt8} {response : Response}
      (hrefused : runServerReads (bytes ++ [byte]) = .refused) :
      HelperMove { p with helper := .reading bytes, stdin := byte :: stdin }
        { p with helper := .leaving (responseBytes response), stdin := stdin }
  | write {p : Process} {byte next : UInt8} {rest : Bytes} :
      HelperMove { p with helper := .answering (byte :: next :: rest) }
        { p with helper := .answering (next :: rest), stdout := p.stdout ++ [byte] }
  | writeLast {p : Process} {byte : UInt8} :
      HelperMove { p with helper := .answering [byte] }
        { p with helper := .reading [], stdout := p.stdout ++ [byte] }
  | writeRefusal {p : Process} {byte : UInt8} {rest : Bytes} :
      HelperMove { p with helper := .leaving (byte :: rest) }
        { p with helper := .leaving rest, stdout := p.stdout ++ [byte] }
  | die {p : Process} : HelperMove p { p with helper := .gone }

/-- Where `ClipboardHelperManager::request` stands, and `exchange_io` in it from `writing` on:
with the bytes still to be written, and those of the response that have been read. -/
inductive Phase
  | idle
  | checking (call : Call)
  | writing (call : Call) (rest : Bytes)
  | readingHeader (call : Call) (header : Bytes)
  | readingBody (call : Call) (status : UInt8) (length body : Bytes)

/-- The manager with its process: `self.process` between requests, the one that the request
has taken in the other phases. A process that is dropped is killed. -/
structure State where
  phase : Phase
  process : Option Process

/-- `exchange_io` up to its first write. -/
def beginExchange (call : Call) (p : Process) : State :=
  match exchangeBytes call.request with
  | .error _ => ⟨.idle, none⟩
  | .ok bytes => ⟨.writing call bytes, some { p with asked := p.asked ++ [call] }⟩

/-- A request that is under way. -/
def Phase.busy : Phase → Bool
  | .idle => false
  | _ => true

inductive Action
  | returns (call : Call) (status : UInt8) (payload : Bytes)
  | other

inductive Step : State → Action → State → Prop
  -- the stream is canceled already, or the helper does not start
  | refuse {process : Option Process} : Step ⟨.idle, process⟩ .other ⟨.idle, process⟩
  | start {call : Call} : Step ⟨.idle, none⟩ .other ⟨.checking call, some .started⟩
  | take {call : Call} {p : Process} : Step ⟨.idle, some p⟩ .other ⟨.checking call, some p⟩
  -- `try_wait`
  | running {call : Call} {p : Process} :
      Step ⟨.checking call, some p⟩ .other (beginExchange call p)
  | restart {call : Call} {p : Process} :
      Step ⟨.checking call, some { p with helper := .gone }⟩ .other
        (beginExchange call .started)
  -- `exchange_io`
  | write {call : Call} {byte : UInt8} {rest : Bytes} {p : Process} :
      Step ⟨.writing call (byte :: rest), some p⟩ .other
        ⟨.writing call rest, some { p with stdin := p.stdin ++ [byte] }⟩
  | flush {call : Call} {p : Process} :
      Step ⟨.writing call [], some p⟩ .other ⟨.readingHeader call [], some p⟩
  | readHeader {call : Call} {header stdout : Bytes} {byte : UInt8} {p : Process}
      (hshort : header.length < 5) :
      Step ⟨.readingHeader call header, some { p with stdout := byte :: stdout }⟩ .other
        ⟨.readingHeader call (header ++ [byte]), some { p with stdout := stdout }⟩
  | acceptLength {call : Call} {status : UInt8} {length : Bytes} {p : Process}
      (hfour : length.length = 4) (hlength : ofBigEndian length ≤ maxClipboardText) :
      Step ⟨.readingHeader call (status :: length), some p⟩ .other
        ⟨.readingBody call status length [], some p⟩
  | refuseLength {call : Call} {status : UInt8} {length : Bytes} {p : Process}
      (hfour : length.length = 4) (hlength : maxClipboardText < ofBigEndian length) :
      Step ⟨.readingHeader call (status :: length), some p⟩ .other ⟨.idle, none⟩
  | readBody {call : Call} {status : UInt8} {length body stdout : Bytes} {byte : UInt8}
      {p : Process} (hshort : body.length < ofBigEndian length) :
      Step ⟨.readingBody call status length body, some { p with stdout := byte :: stdout }⟩
        .other ⟨.readingBody call status length (body ++ [byte]), some { p with stdout := stdout }⟩
  -- the status of the response
  | returns {call : Call} {status : UInt8} {length body : Bytes} {p : Process}
      (hlength : body.length = ofBigEndian length)
      (hstatus : status = statusOk ∨ status = statusError) :
      Step ⟨.readingBody call status length body, some p⟩ (.returns call status body)
        ⟨.idle, some p⟩
  | invalidStatus {call : Call} {status : UInt8} {length body : Bytes} {p : Process}
      (hlength : body.length = ofBigEndian length)
      (hstatus : status ≠ statusOk ∧ status ≠ statusError) :
      Step ⟨.readingBody call status length body, some p⟩ .other ⟨.idle, none⟩
  -- the stream is canceled, the request times out or is dropped, a read, a write, `try_wait`
  -- or another start fails
  | fail {phase : Phase} {p : Process} (hbusy : phase.busy = true) :
      Step ⟨phase, some p⟩ .other ⟨.idle, none⟩
  | helper {phase : Phase} {p p' : Process} (hmove : HelperMove p p') :
      Step ⟨phase, some p⟩ .other ⟨phase, some p'⟩

def system : System State Action where
  init := fun s => s = ⟨.idle, none⟩
  step := Step

end SideWire.ClipboardHelper
