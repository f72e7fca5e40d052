import Mathlib.Logic.Function.Basic
import Mathlib.Data.List.Infix
import SideWire.Base.TransitionSystem
import SideWire.RecordLayer

/-!
Two instances of `copy_noise_tunnel` joined by an encrypted stream, at the level of records:
what the receiver opens are the records of the sender in order, up to where the stream ends
or is corrupted.
-/

namespace SideWire.NoiseTunnel

open SideWire.TransitionSystem
open SideWire.ByteString

def tunnelBuffer : Nat := 48 * 1024

/-- What a record says to the receiving end, `none` at the end of the plain stream. -/
def openRecord (record : Bytes) : Except String (Option Bytes) :=
  match record with
  | [] => .error "empty encrypted proxy record"
  | kind :: bytes =>
      if kind = 0 then .ok (some bytes)
      else if kind = 1 ∧ bytes = [] then .ok none
      else .error "invalid encrypted proxy record"

inductive Upload
  | reading
  | writing (record : Bytes) (last : Bool)
  | done
  deriving DecidableEq

inductive Download
  | reading
  | opened (record : Bytes)
  | writing (bytes : Bytes)
  | shutting
  | done
  deriving DecidableEq

/-- One direction. The application at its start has written `pending` that nobody has read,
and has finished once it has shut its side down. Behind the records under way the stream may
be broken. -/
structure Flow where
  pending : Bytes
  finished : Bool
  read : Bytes
  upload : Upload
  sent : List Bytes
  wire : List Bytes
  broken : Bool
  received : List Bytes
  download : Download
  written : Bytes
  shut : Bool
  deriving DecidableEq

def Flow.initial : Flow where
  pending := []
  finished := false
  read := []
  upload := .reading
  sent := []
  wire := []
  broken := false
  received := []
  download := .reading
  written := []
  shut := false

inductive Actor
  | application
  | network
  | upload
  | download
  deriving DecidableEq

/-- The steps of one direction that go well. -/
inductive Flow.Step : Flow → Actor → Flow → Prop
  | arrive {f : Flow} {bytes : Bytes} (hfinished : f.finished = false) :
      Step f .application { f with pending := f.pending ++ bytes }
  | finish {f : Flow} : Step f .application { f with finished := true }
  -- a corrupted record is the first that is lost
  | cut {f : Flow} {kept lost : List Bytes} (hwire : f.wire = kept ++ lost) :
      Step f .network { f with wire := kept, broken := true }
  | readChunk {f : Flow} {chunk rest : Bytes} (hupload : f.upload = .reading)
      (hpending : f.pending = chunk ++ rest) (hchunk : chunk ≠ [])
      (hbuffer : chunk.length ≤ tunnelBuffer) :
      Step f .upload { f with
        pending := rest, read := f.read ++ chunk, upload := .writing (0 :: chunk) false }
  | readEof {f : Flow} (hupload : f.upload = .reading) (hpending : f.pending = [])
      (hfinished : f.finished = true) :
      Step f .upload { f with upload := .writing [1] true }
  | writeRecord {f : Flow} {record : Bytes} {last : Bool}
      (hupload : f.upload = .writing record last)
      (hlength : record.length ≤ RecordLayer.noiseChunk + 1) :
      Step f .upload { f with
        upload := if last = true then .done else .reading
        sent := f.sent ++ [record]
        wire := if f.broken = true then f.wire else f.wire ++ [record] }
  | readRecord {f : Flow} {record : Bytes} {rest : List Bytes} (hdownload : f.download = .reading)
      (hwire : f.wire = record :: rest) :
      Step f .download { f with
        wire := rest, received := f.received ++ [record], download := .opened record }
  | data {f : Flow} {record bytes : Bytes} (hdownload : f.download = .opened record)
      (hrecord : openRecord record = .ok (some bytes)) :
      Step f .download { f with download := .writing bytes }
  | write {f : Flow} {chunk rest : Bytes} (hdownload : f.download = .writing (chunk ++ rest))
      (hchunk : chunk ≠ []) :
      Step f .download { f with written := f.written ++ chunk, download := .writing rest }
  | flush {f : Flow} (hdownload : f.download = .writing []) :
      Step f .download { f with download := .reading }
  | final {f : Flow} {record : Bytes} (hdownload : f.download = .opened record)
      (hrecord : openRecord record = .ok none) :
      Step f .download { f with download := .shutting }
  | shutdown {f : Flow} (hdownload : f.download = .shutting) :
      Step f .download { f with download := .done, shut := true }

/-- The calls of one direction that may fail: reading and writing the plain side, writing a
record, and reading one behind which the stream is broken. -/
inductive Flow.Fails : Flow → Actor → Prop
  | read {f : Flow} (hupload : f.upload = .reading) : Fails f .upload
  | writeRecord {f : Flow} {record : Bytes} {last : Bool}
      (hupload : f.upload = .writing record last) : Fails f .upload
  | readRecord {f : Flow} (hdownload : f.download = .reading) (hwire : f.wire = [])
      (hbroken : f.broken = true) : Fails f .download
  | openRecord {f : Flow} {record : Bytes} {error : String}
      (hdownload : f.download = .opened record) (hrecord : openRecord record = .error error) :
      Fails f .download
  | write {f : Flow} {bytes : Bytes} (hdownload : f.download = .writing bytes) : Fails f .download
  | shutdown {f : Flow} (hdownload : f.download = .shutting) : Fails f .download

inductive Side
  | left
  | right
  deriving DecidableEq

def Side.other : Side → Side
  | .left => .right
  | .right => .left

inductive Tunnel
  | running
  | ok
  | failed
  deriving DecidableEq

/-- The flow of a side starts there: its upload belongs to the tunnel of that side, and its
download to the other one. -/
structure State where
  flows : Side → Flow
  tunnels : Side → Tunnel

def State.initial : State := ⟨fun _ => .initial, fun _ => .running⟩

namespace State

variable (s : State) (side other : Side) (f : Flow) (tunnel : Tunnel)

def setFlow : State := { s with flows := Function.update s.flows side f }

def setTunnel : State := { s with tunnels := Function.update s.tunnels side tunnel }

@[simp] theorem setFlow_self : (s.setFlow side f).flows side = f := Function.update_self ..

@[simp] theorem setFlow_tunnels : (s.setFlow side f).tunnels = s.tunnels := rfl

@[simp] theorem setTunnel_self : (s.setTunnel side tunnel).tunnels side = tunnel :=
  Function.update_self ..

@[simp] theorem setTunnel_flows : (s.setTunnel side tunnel).flows = s.flows := rfl

variable {s side other f tunnel}

theorem setFlow_of_ne (h : other ≠ side) : (s.setFlow side f).flows other = s.flows other :=
  Function.update_of_ne h _ _

theorem setTunnel_of_ne (h : other ≠ side) :
    (s.setTunnel side tunnel).tunnels other = s.tunnels other :=
  Function.update_of_ne h _ _

end State

/-- The tunnel in which a part of a flow runs. -/
def Actor.tunnel (side : Side) : Actor → Option Side
  | .upload => some side
  | .download => some side.other
  | .application | .network => none

inductive Step : State → Side × Actor → State → Prop
  | flow {s : State} {side : Side} {actor : Actor} {f : Flow}
      (hstep : (s.flows side).Step actor f)
      (hrunning : ∀ owner, actor.tunnel side = some owner → s.tunnels owner = .running) :
      Step s (side, actor) (s.setFlow side f)
  -- `try_join!` with the first error, and with both results
  | fails {s : State} {side owner : Side} {actor : Actor} (hfails : (s.flows side).Fails actor)
      (howner : actor.tunnel side = some owner) (hrunning : s.tunnels owner = .running) :
      Step s (side, actor) (s.setTunnel owner .failed)
  | join {s : State} {side : Side} (hrunning : s.tunnels side = .running)
      (hupload : (s.flows side).upload = .done)
      (hdownload : (s.flows side.other).download = .done) :
      Step s (side, .upload) (s.setTunnel side .ok)

def system : System State (Side × Actor) where
  init := fun s => s = .initial
  step := Step

/-- What a list of records carries. -/
def payload (records : List Bytes) : Bytes := (records.map List.tail).flatten

/-- What has been opened and is still to be written. -/
def Download.rest : Download → Bytes
  | .opened record => record.tail
  | .writing bytes => bytes
  | .reading | .shutting | .done => []

/-- What has been read and is still to be sent. -/
def Upload.rest : Upload → Bytes
  | .writing record _ => record.tail
  | .reading | .done => []

/-- The end of the plain stream has been read. -/
def Upload.ended : Upload → Bool
  | .writing _ last => last
  | .done => true
  | .reading => false

def finalRecord : Bytes := [1]

/-- A record with bytes of the plain stream. -/
def IsData (record : Bytes) : Prop :=
  ∃ chunk, record = 0 :: chunk ∧ chunk ≠ [] ∧ chunk.length ≤ tunnelBuffer

structure Flow.Inv (f : Flow) : Prop where
  sent : f.upload ≠ .done → ∀ record ∈ f.sent, IsData record
  done : f.upload = .done → ∃ records, f.sent = records ++ [finalRecord] ∧
    ∀ record ∈ records, IsData record
  writing : ∀ record last, f.upload = .writing record last →
    (last = false ∧ IsData record) ∨ (last = true ∧ record = finalRecord)
  read : f.read = payload f.sent ++ f.upload.rest
  ended : f.upload.ended = true → f.finished = true ∧ f.pending = []
  received : f.received ++ f.wire <+: f.sent
  intact : f.broken = false → f.received ++ f.wire = f.sent
  opened : ∀ record, f.download = .opened record →
    ∃ before, f.received = before ++ [record] ∧ finalRecord ∉ before
  going : f.download = .reading ∨ (∃ bytes, f.download = .writing bytes) →
    finalRecord ∉ f.received
  written : f.written ++ f.download.rest = payload f.received
  final : f.download = .shutting ∨ f.download = .done → finalRecord ∈ f.received
  shut : f.shut = true ↔ f.download = .done

section Records

variable {record bytes : Bytes} {records more : List Bytes}

theorem payload_append (records more : List Bytes) :
    payload (records ++ more) = payload records ++ payload more := by
  simp [payload]

theorem payload_singleton (record : Bytes) : payload [record] = record.tail := by
  simp [payload]

theorem payload_prefix (h : records <+: more) : payload records <+: payload more := by
  obtain ⟨rest, rfl⟩ := h
  rw [payload_append]
  exact List.prefix_append _ _

theorem IsData.ne_final (h : IsData record) : record ≠ finalRecord := by
  obtain ⟨chunk, rfl, _⟩ := h
  simp [finalRecord]

theorem IsData.length_le (h : IsData record) : record.length ≤ RecordLayer.noiseChunk + 1 := by
  obtain ⟨chunk, rfl, _, hlength⟩ := h
  simp only [List.length_cons, tunnelBuffer, RecordLayer.noiseChunk] at hlength ⊢
  omega

theorem IsData.open (h : IsData record) : openRecord record = .ok (some record.tail) := by
  obtain ⟨chunk, rfl, _⟩ := h
  rfl

theorem open_final : openRecord finalRecord = .ok none := rfl

theorem tail_of_open (h : openRecord record = .ok (some bytes)) : record.tail = bytes := by
  cases record with
  | nil => exact nomatch h
  | cons kind rest =>
      rw [openRecord] at h
      split_ifs at h
      · simpa using h
      · exact nomatch Except.ok.inj h

theorem eq_final_of_open (h : openRecord record = .ok none) : record = finalRecord := by
  cases record with
  | nil => exact nomatch h
  | cons kind rest =>
      rw [openRecord] at h
      by_cases hkind : kind = 0
      · simp [hkind] at h
      · by_cases hfinal : kind = 1 ∧ rest = []
        · rw [hfinal.1, hfinal.2, finalRecord]
        · simp [hkind, hfinal] at h

end Records

section Flows

variable {f f' : Flow} {actor : Actor}

theorem Flow.inv_initial : Flow.initial.Inv where
  sent := nofun
  done := nofun
  writing := nofun
  read := rfl
  ended := nofun
  received := List.prefix_rfl
  intact _ := rfl
  opened := nofun
  going _ := List.not_mem_nil
  written := rfl
  final := by simp [Flow.initial]
  shut := by simp [Flow.initial]

theorem Flow.Inv.upload (h : f.Inv) (hreading : f.upload = .reading) {pending read : Bytes}
    {record : Bytes} {last : Bool}
    (hrecord : (last = false ∧ IsData record) ∨ (last = true ∧ record = finalRecord))
    (hread : read = f.read ++ record.tail)
    (hended : last = true → f.finished = true ∧ pending = []) :
    Flow.Inv { f with pending := pending, read := read, upload := .writing record last } where
  sent _ := h.sent (by simp [hreading])
  done := nofun
  writing := by
    rintro _ _ ⟨⟩
    exact hrecord
  read := by
    have hbefore := h.read
    rw [hreading, Upload.rest, List.append_nil] at hbefore
    rw [hread, hbefore]
    rfl
  ended := hended
  received := h.received
  intact := h.intact
  opened := h.opened
  going := h.going
  written := h.written
  final := h.final
  shut := h.shut

theorem Flow.Inv.writeRecord (h : f.Inv) {record : Bytes} {last : Bool}
    (hupload : f.upload = .writing record last) :
    Flow.Inv { f with
      upload := if last = true then .done else .reading
      sent := f.sent ++ [record]
      wire := if f.broken = true then f.wire else f.wire ++ [record] } := by
  have hdata := h.sent (by simp [hupload])
  have hread : f.read = payload (f.sent ++ [record]) := by
    rw [payload_append, payload_singleton, h.read, hupload]
    rfl
  have hreceived : f.received ++ (if f.broken = true then f.wire else f.wire ++ [record]) <+:
      f.sent ++ [record] := by
    cases hbroken : f.broken with
    | true => simpa using h.received.trans (List.prefix_append _ _)
    | false =>
        rw [← h.intact hbroken]
        simp only [Bool.false_eq_true, if_false, List.append_assoc, List.prefix_rfl]
  have hintact : f.broken = false →
      f.received ++ (if f.broken = true then f.wire else f.wire ++ [record]) =
        f.sent ++ [record] := by
    intro hbroken
    rw [← h.intact hbroken]
    simp [hbroken]
  rcases h.writing record last hupload with ⟨rfl, hrecord⟩ | ⟨rfl, rfl⟩
  · refine ⟨fun _ => ?_, nofun, nofun, ?_, nofun, hreceived, hintact, h.opened, h.going,
      h.written, h.final, h.shut⟩
    · exact List.forall_mem_append.mpr ⟨hdata, List.forall_mem_singleton.mpr hrecord⟩
    · simpa [Upload.rest] using hread
  · refine ⟨fun hne => absurd rfl hne, fun _ => ⟨f.sent, rfl, hdata⟩, nofun, ?_, fun _ => ?_,
      hreceived, hintact, h.opened, h.going, h.written, h.final, h.shut⟩
    · simpa [Upload.rest] using hread
    · exact h.ended (by simp [hupload, Upload.ended])

theorem Flow.Inv.download (h : f.Inv) (hnotDone : f.download ≠ .done) {download : Download}
    {written : Bytes} (hopened : ∀ record, download ≠ .opened record)
    (hwritten : written ++ download.rest = f.written ++ f.download.rest)
    (hgoing : download = .reading ∨ (∃ bytes, download = .writing bytes) →
      finalRecord ∉ f.received)
    (hfinal : download = .shutting → finalRecord ∈ f.received) (hdone : download ≠ .done) :
    Flow.Inv { f with download := download, written := written } where
  sent := h.sent
  done := h.done
  writing := h.writing
  read := h.read
  ended := h.ended
  received := h.received
  intact := h.intact
  opened record heq := absurd heq (hopened record)
  going := hgoing
  written := hwritten.trans h.written
  final heq := heq.elim hfinal fun heq => absurd heq hdone
  shut := iff_of_false (fun hshut => hnotDone (h.shut.mp hshut)) hdone

theorem Flow.Inv.step (h : f.Inv) (hstep : f.Step actor f') : f'.Inv := by
  cases hstep with
  | arrive hfinished =>
      refine ⟨h.sent, h.done, h.writing, h.read, fun hended => ?_, h.received, h.intact,
        h.opened, h.going, h.written, h.final, h.shut⟩
      exact nomatch hfinished.symm.trans (h.ended hended).1
  | finish =>
      exact ⟨h.sent, h.done, h.writing, h.read, fun hended => ⟨rfl, (h.ended hended).2⟩,
        h.received, h.intact, h.opened, h.going, h.written, h.final, h.shut⟩
  | cut hwire =>
      refine ⟨h.sent, h.done, h.writing, h.read, h.ended, ?_, nofun, h.opened, h.going,
        h.written, h.final, h.shut⟩
      have hreceived := h.received
      rw [hwire, ← List.append_assoc] at hreceived
      exact (List.prefix_append _ _).trans hreceived
  | @readChunk chunk rest hupload hpending hchunk hbuffer =>
      exact h.upload hupload (.inl ⟨rfl, chunk, rfl, hchunk, hbuffer⟩) rfl nofun
  | readEof hupload hpending hfinished =>
      exact h.upload hupload (.inr ⟨rfl, rfl⟩) (List.append_nil _).symm
        fun _ => ⟨hfinished, hpending⟩
  | writeRecord hupload => exact h.writeRecord hupload
  | @readRecord record rest hdownload hwire =>
      have hsame : (f.received ++ [record]) ++ rest = f.received ++ f.wire := by simp [hwire]
      refine ⟨h.sent, h.done, h.writing, h.read, h.ended, ?_, ?_, ?_, by simp, ?_, nofun, ?_⟩
      · rw [hsame]
        exact h.received
      · rw [hsame]
        exact h.intact
      · rintro _ ⟨⟩
        exact ⟨f.received, rfl, h.going (.inl hdownload)⟩
      · have hwritten := h.written
        rw [hdownload, Download.rest, List.append_nil] at hwritten
        rw [payload_append, payload_singleton, ← hwritten]
        rfl
      · simpa [hdownload] using h.shut
  | @data record bytes hdownload hrecord =>
      obtain ⟨before, hbefore, hnot⟩ := h.opened _ hdownload
      refine h.download (by simp [hdownload]) nofun ?_ (fun _ => ?_) nofun nofun
      · rw [hdownload, Download.rest, Download.rest, tail_of_open hrecord]
      · rw [hbefore, List.mem_append, List.mem_singleton, not_or]
        refine ⟨hnot, ?_⟩
        rintro rfl
        exact nomatch hrecord
  | write hdownload =>
      refine h.download (by simp [hdownload]) nofun ?_ (fun _ => ?_) nofun nofun
      · simp [hdownload, Download.rest]
      · exact h.going (.inr ⟨_, hdownload⟩)
  | flush hdownload =>
      refine h.download (by simp [hdownload]) nofun ?_ (fun _ => ?_) nofun nofun
      · simp [hdownload, Download.rest]
      · exact h.going (.inr ⟨_, hdownload⟩)
  | @final record hdownload hrecord =>
      obtain rfl := eq_final_of_open hrecord
      obtain ⟨before, hbefore, _⟩ := h.opened _ hdownload
      refine h.download (by simp [hdownload]) nofun ?_ (by simp) (fun _ => ?_) nofun
      · simp [hdownload, Download.rest, finalRecord]
      · simp [hbefore]
  | shutdown hdownload =>
      have hwritten := h.written
      rw [hdownload] at hwritten
      exact ⟨h.sent, h.done, h.writing, h.read, h.ended, h.received, h.intact, nofun, by simp,
        hwritten, fun _ => h.final (.inl hdownload), iff_of_true rfl rfl⟩

theorem Flow.Inv.delivered (h : f.Inv) : f.written <+: f.read := by
  have hpayload : f.written <+: payload f.received := h.written ▸ List.prefix_append _ _
  have hsent : payload f.received <+: payload f.sent :=
    payload_prefix ((List.prefix_append _ _).trans h.received)
  rw [h.read]
  exact (hpayload.trans hsent).trans (List.prefix_append _ _)

theorem Flow.Inv.sent_of_received (h : f.Inv) {record : Bytes} (hmem : record ∈ f.received) :
    record ∈ f.sent :=
  ((List.prefix_append _ _).trans h.received).subset hmem

theorem Flow.Inv.received_eq (h : f.Inv) (hfinal : finalRecord ∈ f.received) :
    f.upload = .done ∧ f.received = f.sent := by
  have hdone : f.upload = .done := by
    by_contra hne
    exact (h.sent hne _ (h.sent_of_received hfinal)).ne_final rfl
  obtain ⟨records, hsent, hdata⟩ := h.done hdone
  have hprefix : f.received <+: records ++ [finalRecord] :=
    hsent ▸ (List.prefix_append _ _).trans h.received
  refine ⟨hdone, ?_⟩
  rcases List.prefix_concat_iff.mp hprefix with heq | hearlier
  · exact heq.trans hsent.symm
  · exact absurd rfl (hdata _ (hearlier.subset hfinal)).ne_final

/-- The plain side is shut down only at the end of the other one, with all its bytes. -/
theorem Flow.Inv.complete (h : f.Inv) (hshut : f.shut = true) :
    f.upload = .done ∧ f.finished = true ∧ f.pending = [] ∧ f.written = f.read := by
  have hdownload := h.shut.mp hshut
  obtain ⟨hdone, hreceived⟩ := h.received_eq (h.final (.inr hdownload))
  obtain ⟨hfinished, hpending⟩ := h.ended (by simp [hdone, Upload.ended])
  refine ⟨hdone, hfinished, hpending, ?_⟩
  have hwritten := h.written
  rw [hdownload, Download.rest, List.append_nil] at hwritten
  rw [hwritten, hreceived, h.read, hdone, Upload.rest, List.append_nil]

end Flows

section Progress

variable {f f' : Flow} {actor : Actor}

def Upload.rank : Upload → Nat
  | .done => 0
  | .writing _ true => 5
  | .reading => 6
  | .writing _ false => 11

def Download.rank : Download → Nat
  | .reading | .done => 0
  | .shutting | .writing [] => 1
  | .writing (_ :: _) => 2
  | .opened _ => 3

/-- How much the receiver has still to do with what is under way. -/
def Flow.toReceive (f : Flow) : Nat := 4 * f.wire.length + f.download.rank

/-- How much both ends have still to do for the whole plain stream. -/
def Flow.rank (f : Flow) : Nat := 12 * f.pending.length + f.upload.rank + f.toReceive

theorem Download.rank_writing_le (bytes : Bytes) : (Download.writing bytes).rank ≤ 2 := by
  cases bytes <;> simp [Download.rank]

theorem Flow.Inv.exists_upload (h : f.Inv) (hfinished : f.finished = true)
    (hbroken : f.broken = false) (hne : f.upload ≠ .done) :
    ∃ f', f.Step .upload f' ∧ f'.rank < f.rank ∧ f'.finished = true ∧ f'.broken = false := by
  cases hupload : f.upload with
  | done => exact absurd hupload hne
  | reading =>
      cases hpending : f.pending with
      | nil =>
          refine ⟨_, .readEof hupload hpending hfinished, ?_, hfinished, hbroken⟩
          simp [Flow.rank, Flow.toReceive, hupload, Upload.rank]
      | cons byte rest =>
          have hsplit := (List.take_append_drop tunnelBuffer f.pending).symm
          have hchunk : f.pending.take tunnelBuffer ≠ [] := by simp [hpending, tunnelBuffer]
          refine ⟨_, .readChunk hupload hsplit hchunk (List.length_take_le _ _), ?_, hfinished,
            hbroken⟩
          have hless : (f.pending.drop tunnelBuffer).length < f.pending.length := by
            rw [List.length_drop, hpending, tunnelBuffer, List.length_cons]
            omega
          simp only [Flow.rank, Flow.toReceive, hupload, Upload.rank]
          omega
  | writing record last =>
      rcases h.writing record last hupload with ⟨rfl, hdata⟩ | ⟨rfl, rfl⟩
      · refine ⟨_, .writeRecord hupload hdata.length_le, ?_, hfinished, hbroken⟩
        simp only [Flow.rank, Flow.toReceive, hupload, hbroken, Upload.rank, Bool.false_eq_true,
          if_false, List.length_append, List.length_singleton]
        omega
      · refine ⟨_, .writeRecord hupload (by decide), ?_, hfinished, hbroken⟩
        simp only [Flow.rank, Flow.toReceive, hupload, hbroken, Upload.rank, Bool.false_eq_true,
          if_false, if_true, List.length_append, List.length_singleton]
        omega

theorem Flow.Inv.exists_download (h : f.Inv) (hne : f.download ≠ .done)
    (hleft : f.download ≠ .reading ∨ f.wire ≠ []) :
    ∃ f', f.Step .download f' ∧ f'.toReceive < f.toReceive ∧ f'.pending = f.pending ∧
      f'.upload = f.upload ∧ f'.finished = f.finished ∧ f'.broken = f.broken := by
  cases hdownload : f.download with
  | done => exact absurd hdownload hne
  | reading =>
      cases hwire : f.wire with
      | nil => simp [hdownload, hwire] at hleft
      | cons record rest =>
          refine ⟨_, .readRecord hdownload hwire, ?_, rfl, rfl, rfl, rfl⟩
          simp only [Flow.toReceive, hdownload, hwire, Download.rank, List.length_cons]
          omega
  | opened record =>
      obtain ⟨before, hbefore, _⟩ := h.opened record hdownload
      have hmem : record ∈ f.sent := h.sent_of_received (by simp [hbefore])
      have hrecord : IsData record ∨ record = finalRecord := by
        by_cases hdone : f.upload = .done
        · obtain ⟨records, hsent, hdata⟩ := h.done hdone
          rw [hsent, List.mem_append, List.mem_singleton] at hmem
          exact hmem.imp (hdata record) id
        · exact .inl (h.sent hdone record hmem)
      rcases hrecord with hdata | rfl
      · refine ⟨_, .data hdownload hdata.open, ?_, rfl, rfl, rfl, rfl⟩
        have hrank := Download.rank_writing_le record.tail
        simp only [Flow.toReceive, hdownload, Download.rank] at hrank ⊢
        omega
      · refine ⟨_, .final hdownload open_final, ?_, rfl, rfl, rfl, rfl⟩
        simp [Flow.toReceive, hdownload, Download.rank]
  | writing bytes =>
      cases bytes with
      | nil =>
          refine ⟨_, .flush hdownload, ?_, rfl, rfl, rfl, rfl⟩
          simp [Flow.toReceive, hdownload, Download.rank]
      | cons byte rest =>
          have hwhole : f.download = .writing ((byte :: rest) ++ []) := by simpa using hdownload
          refine ⟨_, .write hwhole (by simp), ?_, rfl, rfl, rfl, rfl⟩
          simp [Flow.toReceive, hdownload, Download.rank]
  | shutting =>
      refine ⟨_, .shutdown hdownload, ?_, rfl, rfl, rfl, rfl⟩
      simp [Flow.toReceive, hdownload, Download.rank]

/-- The stream has ended, or been corrupted, before the final record. -/
structure Flow.Truncated (f : Flow) : Prop where
  broken : f.broken = true
  final : finalRecord ∉ f.received ++ f.wire

theorem Flow.Truncated.step (h : f.Truncated) (hstep : f.Step actor f') : f'.Truncated := by
  cases hstep with
  | arrive | finish | readChunk | readEof | data | write | flush | final | shutdown =>
      exact ⟨h.broken, h.final⟩
  | cut hwire =>
      refine ⟨rfl, fun hmem => h.final ?_⟩
      rw [hwire, ← List.append_assoc]
      exact List.mem_append_left _ hmem
  | writeRecord =>
      refine ⟨h.broken, ?_⟩
      simpa [h.broken] using h.final
  | readRecord _ hwire =>
      refine ⟨h.broken, ?_⟩
      simpa [hwire] using h.final

theorem Flow.Truncated.not_done (h : f.Truncated) (hinv : f.Inv) : f.download ≠ .done := by
  intro hdone
  exact h.final (List.mem_append_left _ (hinv.final (.inr hdone)))

theorem Flow.Step.same_upload (hstep : f.Step actor f') (hactor : actor ≠ .upload) :
    f'.upload = f.upload := by
  cases hstep <;> first | rfl | exact absurd rfl hactor

theorem Flow.Step.same_download (hstep : f.Step actor f') (hactor : actor ≠ .download) :
    f'.download = f.download := by
  cases hstep <;> first | rfl | exact absurd rfl hactor

end Progress

structure Inv (s : State) : Prop where
  flows : ∀ side, (s.flows side).Inv
  ok : ∀ side, s.tunnels side = .ok →
    (s.flows side).upload = .done ∧ (s.flows side.other).download = .done

section Runs

variable {s t : State} {side : Side} {a : Side × Actor}

@[simp] theorem Side.other_other (side : Side) : side.other.other = side := by
  cases side <;> rfl

theorem Side.other_ne (side : Side) : side.other ≠ side := by
  cases side <;> decide

theorem Inv.step (h : Inv s) (hstep : Step s a t) : Inv t := by
  cases hstep with
  | @flow side actor f hstep hrunning =>
      refine ⟨fun other => ?_, fun owner hok => ?_⟩
      · rcases eq_or_ne other side with rfl | hne
        · rw [State.setFlow_self]
          exact (h.flows other).step hstep
        · rw [State.setFlow_of_ne hne]
          exact h.flows other
      · obtain ⟨hupload, hdownload⟩ := h.ok owner hok
        refine ⟨?_, ?_⟩
        · rcases eq_or_ne owner side with rfl | hne
          · rw [State.setFlow_self]
            refine (hstep.same_upload ?_).trans hupload
            rintro rfl
            exact nomatch hok.symm.trans (hrunning owner rfl)
          · rw [State.setFlow_of_ne hne]
            exact hupload
        · rcases eq_or_ne owner.other side with rfl | hne
          · rw [State.setFlow_self]
            refine (hstep.same_download ?_).trans hdownload
            rintro rfl
            exact nomatch hok.symm.trans (hrunning owner (by simp [Actor.tunnel]))
          · rw [State.setFlow_of_ne hne]
            exact hdownload
  | @fails side owner =>
      refine ⟨h.flows, fun other hok => ?_⟩
      rcases eq_or_ne other owner with rfl | hne
      · simp at hok
      · exact h.ok other ((State.setTunnel_of_ne hne).symm.trans hok)
  | @join side _ hupload hdownload =>
      refine ⟨h.flows, fun other hok => ?_⟩
      rcases eq_or_ne other side with rfl | hne
      · exact ⟨hupload, hdownload⟩
      · exact h.ok other ((State.setTunnel_of_ne hne).symm.trans hok)

theorem inv_of_reachable (h : system.Reachable s) : Inv s := by
  refine h.invariant ?_ fun _ _ _ => Inv.step
  rintro s rfl
  exact ⟨fun _ => Flow.inv_initial, nofun⟩

theorem leads_of_flow {actor : Actor} {f : Flow} (hstep : (s.flows side).Step actor f)
    (hrunning : ∀ owner, actor.tunnel side = some owner → s.tunnels owner = .running) :
    system.Leads s (s.setFlow side f) :=
  .single (.flow hstep hrunning)

theorem Tunnel.eq_running {tunnel : Tunnel} (hfailed : tunnel ≠ .failed) (hok : tunnel ≠ .ok) :
    tunnel = .running := by
  cases tunnel with
  | running => rfl
  | ok => exact absurd rfl hok
  | failed => exact absurd rfl hfailed

/-- Whatever the other direction has come to, this one gets to its end. -/
theorem Inv.completes (h : Inv s) (hstart : s.tunnels side ≠ .failed)
    (hend : s.tunnels side.other ≠ .failed) (hfinished : (s.flows side).finished = true)
    (hbroken : (s.flows side).broken = false) :
    ∃ t, system.Leads s t ∧ (t.flows side).shut = true ∧ t.tunnels = s.tunnels ∧
      t.flows side.other = s.flows side.other := by
  induction hrank : (s.flows side).rank using Nat.strong_induction_on generalizing s with
  | _ rank ih =>
  subst hrank
  have hflow := h.flows side
  -- a step of this direction, and the rest by induction
  have hgoes : ∀ {actor : Actor} {f : Flow}, (s.flows side).Step actor f →
      (∀ owner, actor.tunnel side = some owner → s.tunnels owner = .running) →
      f.rank < (s.flows side).rank → f.finished = true → f.broken = false →
      ∃ t, system.Leads s t ∧ (t.flows side).shut = true ∧ t.tunnels = s.tunnels ∧
        t.flows side.other = s.flows side.other := by
    intro actor f hstep hrunning hless hfinished' hbroken'
    obtain ⟨t, hruns, hshut, htunnels, hother⟩ :=
      ih _ (s := s.setFlow side f) (by simpa using hless)
        (h.step (.flow hstep hrunning)) hstart hend (by simpa using hfinished')
        (by simpa using hbroken') rfl
    refine ⟨t, (leads_of_flow hstep hrunning).trans hruns, hshut, htunnels, ?_⟩
    exact hother.trans (State.setFlow_of_ne side.other_ne)
  by_cases hdone : (s.flows side).download = .done
  · exact ⟨s, .refl, hflow.shut.mpr hdone, rfl, rfl⟩
  by_cases hleft : (s.flows side).download ≠ .reading ∨ (s.flows side).wire ≠ []
  · obtain ⟨f, hstep, hless, hpending, hupload, hfinished', hbroken'⟩ :=
      hflow.exists_download hdone hleft
    refine hgoes hstep ?_ ?_ (hfinished'.trans hfinished) (hbroken'.trans hbroken)
    · rintro _ ⟨⟩
      refine Tunnel.eq_running hend fun hok => hdone ?_
      simpa using (h.ok side.other hok).2
    · rw [Flow.rank, Flow.rank, hpending, hupload]
      omega
  · push Not at hleft
    obtain ⟨hreading, hwire⟩ := hleft
    have hupload : (s.flows side).upload ≠ .done := by
      intro hupload
      obtain ⟨records, hsent, _⟩ := hflow.done hupload
      have hreceived := hflow.intact hbroken
      rw [hwire, List.append_nil] at hreceived
      exact hflow.going (.inl hreading) (by simp [hreceived, hsent])
    obtain ⟨f, hstep, hless, hfinished', hbroken'⟩ :=
      hflow.exists_upload hfinished hbroken hupload
    refine hgoes hstep ?_ hless hfinished' hbroken'
    rintro _ ⟨⟩
    exact Tunnel.eq_running hstart fun hok => hupload (h.ok side hok).1

/-- Behind a stream that is cut short, the receiving tunnel fails. -/
theorem Inv.fails (h : Inv s) (htruncated : (s.flows side).Truncated)
    (hrunning : s.tunnels side.other = .running) :
    ∃ t, system.Leads s t ∧ t.tunnels side.other = .failed := by
  induction hrank : (s.flows side).toReceive using Nat.strong_induction_on generalizing s with
  | _ rank ih =>
  subst hrank
  have hflow := h.flows side
  by_cases hleft : (s.flows side).download ≠ .reading ∨ (s.flows side).wire ≠ []
  · obtain ⟨f, hstep, hless, _⟩ := hflow.exists_download (htruncated.not_done hflow) hleft
    have hruns : ∀ owner, Actor.download.tunnel side = some owner →
        s.tunnels owner = .running := by
      rintro _ ⟨⟩
      exact hrunning
    have htruncated' := htruncated.step hstep
    obtain ⟨t, hrest, hfailed⟩ :=
      ih _ (s := s.setFlow side f) (by simpa using hless)
        (h.step (.flow hstep hruns)) (by simpa using htruncated') hrunning rfl
    exact ⟨t, (leads_of_flow hstep hruns).trans hrest, hfailed⟩
  · push Not at hleft
    obtain ⟨hreading, hwire⟩ := hleft
    exact ⟨_, .single (.fails (.readRecord hreading hwire htruncated.broken) rfl hrunning),
      State.setTunnel_self ..⟩

theorem leads_truncated (hruns : system.Leads s t) (h : (s.flows side).Truncated) :
    (t.flows side).Truncated := by
  refine hruns.preserves (P := fun u => (u.flows side).Truncated) ?_ h
  intro u a v hu hstep
  cases hstep with
  | @flow other actor f hstep =>
      rcases eq_or_ne side other with rfl | hne
      · rw [State.setFlow_self]
        exact hu.step hstep
      · rw [State.setFlow_of_ne hne]
        exact hu
  | fails | join => exact hu

end Runs

/-- What two joined tunnels guarantee. -/
structure Faithful (s : State) : Prop where
  delivered : ∀ side, (s.flows side).written <+: (s.flows side).read
  complete : ∀ side, (s.flows side).shut = true →
    (s.flows side).upload = .done ∧ (s.flows side).finished = true ∧
      (s.flows side).pending = [] ∧ (s.flows side).written = (s.flows side).read
  stops : ∀ a t side, Step s a t → t.tunnels side ≠ s.tunnels side →
    (∃ start actor, (s.flows start).Fails actor ∧ actor.tunnel start = some side) ∨
      ((s.flows side).upload = .done ∧ (s.flows side.other).download = .done)
  completes : ∀ side, s.tunnels side ≠ .failed → s.tunnels side.other ≠ .failed →
    (s.flows side).finished = true → (s.flows side).broken = false →
    ∃ t, system.Leads s t ∧ (t.flows side).shut = true ∧ t.tunnels = s.tunnels ∧
      t.flows side.other = s.flows side.other
  truncated : ∀ side, (s.flows side).Truncated →
    (∀ t, system.Leads s t → (t.flows side).shut = false ∧ t.tunnels side.other ≠ .ok) ∧
      (s.tunnels side.other = .running →
        ∃ t, system.Leads s t ∧ t.tunnels side.other = .failed)

theorem tunnels_faithful {s : State} (h : system.Reachable s) : Faithful s where
  delivered side := ((inv_of_reachable h).flows side).delivered
  complete side := ((inv_of_reachable h).flows side).complete
  stops a t side hstep hchanged := by
    cases hstep with
    | flow => exact absurd rfl hchanged
    | @fails start owner actor hfails howner =>
        rcases eq_or_ne side owner with rfl | hne
        · exact .inl ⟨start, actor, hfails, howner⟩
        · exact absurd (State.setTunnel_of_ne hne) hchanged
    | @join other _ hupload hdownload =>
        rcases eq_or_ne side other with rfl | hne
        · exact .inr ⟨hupload, hdownload⟩
        · exact absurd (State.setTunnel_of_ne hne) hchanged
  completes side := (inv_of_reachable h).completes
  truncated side htruncated := by
    refine ⟨fun t hruns => ?_, (inv_of_reachable h).fails htruncated⟩
    have hinv := inv_of_reachable (h.leads hruns)
    have hnotDone := (leads_truncated hruns htruncated).not_done (hinv.flows side)
    refine ⟨?_, fun hok => hnotDone ?_⟩
    · cases hshut : (t.flows side).shut with
      | false => rfl
      | true => exact absurd ((hinv.flows side).shut.mp hshut) hnotDone
    · simpa using (hinv.ok side.other hok).2

/-- Two bytes on their way from the left application to the right one. -/
theorem tunnels_faithful_bytes :
    ∃ s, (s.flows .left).written = [104, 105] ∧ s.tunnels .right = .running ∧ Faithful s := by
  have harrived := System.Leads.single (M := system)
    (@Step.flow .initial .left _ _ (@Flow.Step.arrive _ [104, 105] rfl) nofun)
  have hread := harrived.tail (@Step.flow _ .left _ _
    (@Flow.Step.readChunk _ [104, 105] [] rfl rfl (by decide) (by decide)) fun _ _ => rfl)
  have hsent := hread.tail (@Step.flow _ .left _ _
    (@Flow.Step.writeRecord _ [0, 104, 105] false rfl (by decide)) fun _ _ => rfl)
  have hopened := (hsent.tail (@Step.flow _ .left _ _
    (@Flow.Step.readRecord _ [0, 104, 105] [] rfl rfl) fun _ _ => rfl)).tail
    (@Step.flow _ .left _ _ (@Flow.Step.data _ _ [104, 105] rfl rfl) fun _ _ => rfl)
  have hwritten := hopened.tail (@Step.flow _ .left _ _
    (@Flow.Step.write _ [104, 105] [] rfl (by decide)) fun _ _ => rfl)
  exact ⟨_, rfl, rfl, tunnels_faithful ⟨_, rfl, hwritten⟩⟩

end SideWire.NoiseTunnel
