import SideWire.ClipboardHelper

namespace SideWire.ClipboardHelper

open SideWire.TransitionSystem
open SideWire.ByteString

theorem readInt_bigEndian {value : Nat} (h : value < 2 ^ 31) :
    readInt (bigEndian 4 value) = value := by
  have hvalue : ofBigEndian (bigEndian 4 value) = value := ofBigEndian_bigEndian 4 value (by omega)
  rw [readInt, hvalue, if_pos h]

theorem exchangeBytes_eq_ok {request : Request} {full : Bytes}
    (h : exchangeBytes request = .ok full) :
    request.payload.length ≤ maxClipboardText ∧
      full = request.opcode :: bigEndian 4 request.payload.length ++ request.payload := by
  unfold exchangeBytes at h
  split_ifs at h with hlong
  exact ⟨Nat.not_lt.mp hlong, (Except.ok.inj h).symm⟩

theorem runServerReads_of_short {operation : UInt8} {bytes : Bytes} (h : bytes.length < 4) :
    runServerReads (operation :: bytes) = .more := if_pos h

theorem runServerReads_append {operation : UInt8} {length : Nat} {payload : Bytes}
    (h : length ≤ maxClipboardText) :
    runServerReads (operation :: (bigEndian 4 length ++ payload)) =
      if payload.length < length then .more else .request ⟨operation, payload.take length⟩ := by
  have hint : readInt (bigEndian 4 length) = length :=
    readInt_bigEndian (Nat.lt_of_le_of_lt h (by decide))
  have hallowed : ¬ ((length : Int) < 0 ∨ (maxTextBytes : Int) < length) := by
    simp only [maxClipboardText, maxTextBytes] at h ⊢
    omega
  simp only [runServerReads, List.length_append, length_bigEndian]
  rw [if_neg (by omega), List.take_left' (length_bigEndian 4 length),
    List.drop_left' (length_bigEndian 4 length), hint, if_neg hallowed]
  simp only [Int.toNat_natCast, Nat.add_lt_add_iff_left]

/-- The helper waits for the rest of a request, and recognizes it once it has all of it. -/
theorem runServerReads_of_append {request : Request} {full bytes rest : Bytes}
    (hfull : exchangeBytes request = .ok full) (hsplit : bytes ++ rest = full) :
    runServerReads bytes = if rest = [] then .request request else .more := by
  obtain ⟨hlong, rfl⟩ := exchangeBytes_eq_ok hfull
  rcases request with ⟨opcode, payload⟩
  cases bytes with
  | nil =>
      have hrest : rest ≠ [] := by
        rintro rfl
        exact nomatch hsplit
      rw [if_neg hrest]
      rfl
  | cons operation bytes =>
      simp only [List.cons_append, List.cons.injEq] at hsplit
      obtain ⟨rfl, hsplit⟩ := hsplit
      rcases List.append_eq_append_iff.mp hsplit with ⟨more, hheader, rfl⟩ | ⟨tail, rfl, rfl⟩
      · -- part of the header, or just the header
        have hlength := congrArg List.length hheader
        simp only [List.length_append, length_bigEndian] at hlength
        rcases more with _ | ⟨byte, more⟩
        · have htail := @runServerReads_append operation payload.length [] hlong
          simp only [List.append_nil] at hheader htail
          subst hheader
          rw [htail]
          rcases payload with _ | ⟨byte, payload⟩
          · rfl
          · rfl
        · rw [runServerReads_of_short (by simp only [List.length_cons] at hlength; omega)]
          rfl
      · rw [runServerReads_append hlong]
        rcases rest with _ | ⟨byte, rest⟩
        · simp
        · rw [if_pos (by simp)]
          rfl

theorem runServerCalls_request (call : Call) : runServerCalls call.request = .ok call := by
  cases call <;> rfl

/-! What is in the pipes. -/

/-- Nothing is left in the pipes, and the helper waits for a request or is gone. -/
structure Process.Drained (p : Process) : Prop where
  stdin : p.stdin = []
  stdout : p.stdout = []
  helper : p.helper = .reading [] ∨ p.helper = .gone
  answered : p.answered.map Prod.fst = p.asked.map Call.request

/-- The last answer is the one to the call; each call before has one as well. -/
def Process.Answers (p : Process) (call : Call) (response : Response) : Prop :=
  ∃ earlier done, p.asked = earlier ++ [call] ∧
    p.answered = done ++ [(call.request, response)] ∧
    done.map Prod.fst = earlier.map Call.request

/-- The bytes of an answer that the helper has still to write; if it is gone, it may have left
any. -/
def Helper.Owes : Helper → Bytes → Prop
  | .answering rest, owed => rest = owed ∧ owed ≠ []
  | .reading bytes, owed => bytes = [] ∧ owed = []
  | .leaving _, _ => False
  | .gone, _ => True

/-- How far the process is with a call, of which the manager has not yet written `unwritten`
and has read `got` of the response. -/
inductive Process.Exchanging (p : Process) (call : Call) (unwritten got : Bytes) : Prop
  | asking {earlier : List Call} {bytes full : Bytes}
      (hfull : exchangeBytes call.request = .ok full)
      (hhelper : p.helper = .reading bytes) (hbytes : bytes ++ (p.stdin ++ unwritten) = full)
      (hstdout : p.stdout = []) (hgot : got = []) (hasked : p.asked = earlier ++ [call])
      (hanswered : p.answered.map Prod.fst = earlier.map Call.request)
  | lost (hhelper : p.helper = .gone) (hstdout : p.stdout = []) (hgot : got = [])
  | answered {response : Response} {owed : Bytes} (hunwritten : unwritten = [])
      (hstdin : p.stdin = []) (howes : p.helper.Owes owed)
      (hbytes : got ++ (p.stdout ++ owed) = responseBytes response)
      (hanswers : p.Answers call response)

namespace Process

variable {p p' : Process} {call : Call} {unwritten got : Bytes}

theorem Drained.started : Process.started.Drained := ⟨rfl, rfl, .inl rfl, rfl⟩

theorem Drained.helperMove (h : p.Drained) (hmove : HelperMove p p') : p'.Drained := by
  obtain ⟨hstdin, hstdout, hhelper, hanswered⟩ := h
  cases hmove with
  | read | answer | refuse => exact nomatch hstdin
  | write | writeLast | writeRefusal =>
      rcases hhelper with hhelper | hhelper
      · exact nomatch hhelper
      · exact nomatch hhelper
  | die => exact ⟨hstdin, hstdout, .inr rfl, hanswered⟩

theorem Drained.exchanging (h : p.Drained) {bytes : Bytes}
    (hbytes : exchangeBytes call.request = .ok bytes) :
    Exchanging { p with asked := p.asked ++ [call] } call bytes [] := by
  obtain ⟨hstdin, hstdout, hhelper | hhelper, hanswered⟩ := h
  · have hall : [] ++ (p.stdin ++ bytes) = bytes := by simp only [hstdin, List.nil_append]
    exact .asking hbytes hhelper hall hstdout rfl rfl hanswered
  · exact .lost hhelper hstdout rfl

theorem Exchanging.write {byte : UInt8} {rest : Bytes}
    (h : p.Exchanging call (byte :: rest) []) :
    Exchanging { p with stdin := p.stdin ++ [byte] } call rest [] := by
  cases h with
  | asking hfull hhelper hbytes hstdout hgot hasked hanswered =>
      refine .asking hfull hhelper ?_ hstdout hgot hasked hanswered
      simpa using hbytes
  | lost hhelper hstdout hgot => exact .lost hhelper hstdout hgot
  | answered hunwritten => exact nomatch hunwritten

theorem Exchanging.read {byte : UInt8} {stdout : Bytes}
    (h : Exchanging { p with stdout := byte :: stdout } call [] got) :
    Exchanging { p with stdout := stdout } call [] (got ++ [byte]) := by
  cases h with
  | asking _ _ _ hstdout => exact nomatch hstdout
  | lost _ hstdout => exact nomatch hstdout
  | answered hunwritten hstdin howes hbytes hanswers =>
      refine .answered hunwritten hstdin howes ?_ hanswers
      simpa using hbytes

theorem Exchanging.helperMove (h : p.Exchanging call unwritten got) (hmove : HelperMove p p') :
    p'.Exchanging call unwritten got := by
  cases h with
  | @asking earlier _ full hfull hhelper hbytes hstdout hgot hasked hanswered =>
      cases hmove with
      | read =>
          obtain rfl := Helper.reading.inj hhelper
          refine .asking hfull rfl ?_ hstdout hgot hasked hanswered
          simpa using hbytes
      | @answer p heard stdin byte request response hrequest =>
          obtain rfl := Helper.reading.inj hhelper
          have hsplit : heard ++ [byte] ++ (stdin ++ unwritten) = full := by simpa using hbytes
          rw [runServerReads_of_append hfull hsplit] at hrequest
          split_ifs at hrequest with hrest
          obtain ⟨hstdin, hunwritten⟩ := List.append_eq_nil_iff.mp hrest
          obtain rfl := Reading.request.inj hrequest
          have hbytes : got ++ (p.stdout ++ responseBytes response) = responseBytes response := by
            rw [hgot, show p.stdout = [] from hstdout]
            rfl
          exact .answered hunwritten hstdin ⟨rfl, nofun⟩ hbytes
            ⟨earlier, p.answered, hasked, rfl, hanswered⟩
      | @refuse p heard stdin byte response hrefused =>
          obtain rfl := Helper.reading.inj hhelper
          have hsplit : heard ++ [byte] ++ (stdin ++ unwritten) = full := by simpa using hbytes
          rw [runServerReads_of_append hfull hsplit] at hrefused
          split_ifs at hrefused
      | write | writeLast | writeRefusal => exact nomatch hhelper
      | die => exact .lost rfl hstdout hgot
  | lost hhelper hstdout hgot =>
      cases hmove with
      | die => exact .lost rfl hstdout hgot
      | read | answer | refuse | write | writeLast | writeRefusal => exact nomatch hhelper
  | @answered response _ hunwritten hstdin howes hbytes hanswers =>
      cases hmove with
      | read | answer | refuse => exact nomatch hstdin
      | @write p byte next rest =>
          obtain ⟨rfl, _⟩ := howes
          have hnext : got ++ (p.stdout ++ [byte] ++ next :: rest) = responseBytes response := by
            simpa using hbytes
          exact .answered hunwritten hstdin ⟨rfl, nofun⟩ hnext hanswers
      | @writeLast p byte =>
          obtain ⟨rfl, _⟩ := howes
          have hlast : got ++ (p.stdout ++ [byte] ++ []) = responseBytes response := by
            simpa using hbytes
          exact .answered hunwritten hstdin ⟨rfl, rfl⟩ hlast hanswers
      | writeRefusal => exact nomatch howes
      | die => exact .answered hunwritten hstdin trivial hbytes hanswers

/-- Once the whole response is read, it is the answer to the call, and the pipes are empty. -/
theorem Exchanging.finish {status : UInt8} {length body : Bytes}
    (h : p.Exchanging call [] (status :: length ++ body)) (hfour : length.length = 4)
    (hlength : body.length = ofBigEndian length) :
    p.Drained ∧ ∃ response, p.Answers call response ∧ response.status = status ∧
      response.payload = body := by
  cases h with
  | asking _ _ _ _ hgot => exact nomatch hgot
  | lost _ _ hgot => exact nomatch hgot
  | @answered response owed _ hstdin howes hbytes hanswers =>
      simp only [responseBytes, List.cons_append, List.append_assoc, List.cons.injEq] at hbytes
      obtain ⟨hstatus, hbytes⟩ := hbytes
      obtain ⟨rfl, hpayload⟩ := List.append_inj hbytes (by simpa using hfour)
      have hfits : response.payload.length < 256 ^ 4 := by
        have hjava := response.fits
        omega
      rw [ofBigEndian_bigEndian 4 _ hfits] at hlength
      obtain ⟨rfl, hnothing⟩ := List.append_inj (hpayload.trans (List.append_nil _).symm) hlength
      obtain ⟨hstdout, rfl⟩ := List.append_eq_nil_iff.mp hnothing
      refine ⟨⟨hstdin, hstdout, ?_, ?_⟩, response, hanswers, hstatus.symm, rfl⟩
      · cases hhelper : p.helper with
        | reading bytes =>
            rw [hhelper] at howes
            exact .inl (congrArg Helper.reading howes.1)
        | answering rest =>
            rw [hhelper] at howes
            exact absurd rfl howes.2
        | leaving rest =>
            rw [hhelper] at howes
            exact nomatch howes
        | gone => exact .inr rfl
      · obtain ⟨earlier, done, hasked, hanswered, hdone⟩ := hanswers
        rw [hasked, hanswered, List.map_append, List.map_append, hdone]
        rfl

end Process

/-- What a state of the manager says of its process. -/
def Inv : State → Prop
  | ⟨.idle, process⟩ => ∀ p, process = some p → p.Drained
  | ⟨.checking _, some p⟩ => p.Drained
  | ⟨.writing call rest, some p⟩ => p.Exchanging call rest []
  | ⟨.readingHeader call header, some p⟩ => p.Exchanging call [] header
  | ⟨.readingBody call status length body, some p⟩ =>
      length.length = 4 ∧ p.Exchanging call [] (status :: length ++ body)
  | ⟨_, none⟩ => False

theorem Inv.dropped : Inv ⟨.idle, none⟩ := fun _ h => nomatch h

theorem Process.Drained.beginExchange {p : Process} (h : p.Drained) (call : Call) :
    Inv (beginExchange call p) := by
  unfold ClipboardHelper.beginExchange
  cases hbytes : exchangeBytes call.request with
  | error => exact Inv.dropped
  | ok bytes => exact h.exchanging hbytes

theorem Inv.helperMove {phase : Phase} {p p' : Process} (h : Inv ⟨phase, some p⟩)
    (hmove : HelperMove p p') : Inv ⟨phase, some p'⟩ := by
  cases phase with
  | idle =>
      rintro _ ⟨rfl⟩
      exact (h p rfl).helperMove hmove
  | checking => exact Process.Drained.helperMove h hmove
  | writing | readingHeader => exact Process.Exchanging.helperMove h hmove
  | readingBody => exact ⟨h.1, h.2.helperMove hmove⟩

theorem Inv.step {s t : State} {action : Action} (h : Inv s) (hstep : Step s action t) :
    Inv t := by
  cases hstep with
  | refuse => exact h
  | start => exact Process.Drained.started
  | take => exact h _ rfl
  | running => exact Process.Drained.beginExchange h _
  | restart => exact Process.Drained.started.beginExchange _
  | write => exact Process.Exchanging.write h
  | flush => exact h
  | readHeader => exact Process.Exchanging.read h
  | acceptLength hfour =>
      refine ⟨hfour, ?_⟩
      rw [List.append_nil]
      exact h
  | readBody =>
      refine ⟨h.1, ?_⟩
      rw [← List.append_assoc]
      exact h.2.read
  | returns hlength =>
      rintro _ ⟨rfl⟩
      exact (h.2.finish h.1 hlength).1
  | refuseLength | invalidStatus | fail => exact Inv.dropped
  | helper hmove => exact h.helperMove hmove

/-- A status and a payload that a request returns are the last answer of the helper, to the
last call that it has been asked, with every call before answered as well; the process that is
kept between requests has nothing in its pipes; and the helper reads from the bytes of a
request, as soon as it has all of them, the same operation and payload. -/
theorem answers_are_own {s : State} (h : system.Reachable s) :
    (∀ call status payload t, Step s (.returns call status payload) t →
      ∃ p response, s.process = some p ∧ p.Answers call response ∧
        response.status = status ∧ response.payload = payload) ∧
    (s.phase = .idle → ∀ p, s.process = some p → p.Drained) ∧
    (∀ request, request.payload.length ≤ maxClipboardText →
      ∃ full, exchangeBytes request = .ok full ∧ runServerReads full = .request request ∧
        ∀ bytes rest, bytes ++ rest = full → rest ≠ [] → runServerReads bytes = .more) ∧
    ∀ call : Call, runServerCalls call.request = .ok call := by
  have hinv : Inv s := by
    refine h.invariant ?_ fun _ _ _ => Inv.step
    rintro _ rfl
    exact Inv.dropped
  refine ⟨?_, ?_, ?_, runServerCalls_request⟩
  · intro call status payload t hstep
    cases hstep with
    | returns hlength =>
        obtain ⟨_, response, hanswers⟩ := hinv.2.finish hinv.1 hlength
        exact ⟨_, response, rfl, hanswers⟩
  · rcases s with ⟨phase, process⟩
    rintro rfl
    exact hinv
  · intro request hlong
    have hfull : exchangeBytes request =
        .ok (request.opcode :: bigEndian 4 request.payload.length ++ request.payload) :=
      if_neg (Nat.not_lt.mpr hlong)
    refine ⟨_, hfull, ?_, ?_⟩
    · exact runServerReads_of_append hfull (List.append_nil _)
    · intro bytes rest hsplit hrest
      rw [runServerReads_of_append hfull hsplit, if_neg hrest]

section Runs

variable {phase : Phase} {p : Process} {call : Call}

theorem leads_write (rest : Bytes) :
    system.Leads ⟨.writing call rest, some p⟩
      ⟨.writing call [], some { p with stdin := p.stdin ++ rest }⟩ := by
  have hrun : system.Leads
      ⟨.writing call rest, some { p with stdin := p.stdin ++ [] }⟩
      ⟨.writing call [], some { p with stdin := p.stdin ++ rest }⟩ := by
    refine System.Leads.consume (M := system) (f := fun moved rest =>
      ⟨.writing call rest, some { p with stdin := p.stdin ++ moved }⟩) ?_ (List.nil_append rest)
    intro moved byte rest _
    have hwrite : Step ⟨.writing call (byte :: rest), some { p with stdin := p.stdin ++ moved }⟩ _
      ⟨.writing call rest, some { p with stdin := p.stdin ++ moved ++ [byte] }⟩ := .write
    rw [List.append_assoc] at hwrite
    exact ⟨_, hwrite⟩
  rwa [List.append_nil] at hrun

theorem leads_answer {request : Request} {full heard rest : Bytes} (response : Response)
    (hfull : exchangeBytes request = .ok full) (hsplit : heard ++ rest = full)
    (hrest : rest ≠ []) (hhelper : p.helper = .reading heard) (hstdin : p.stdin = rest) :
    system.Leads ⟨phase, some p⟩ ⟨phase, some { p with
      helper := .answering (responseBytes response), stdin := [],
      answered := p.answered ++ [(request, response)] }⟩ := by
  induction rest generalizing p heard with
  | nil => exact absurd rfl hrest
  | cons byte rest ih =>
      rcases p with ⟨helper, stdin, stdout, asked, answered⟩
      obtain rfl : helper = .reading heard := hhelper
      obtain rfl : stdin = byte :: rest := hstdin
      have hnext : heard ++ [byte] ++ rest = full := by simpa using hsplit
      have hreads := runServerReads_of_append hfull hnext
      let p : Process := ⟨.reading heard, byte :: rest, stdout, asked, answered⟩
      rcases rest with _ | ⟨next, rest⟩
      · exact .single (.helper (@HelperMove.answer p heard [] byte request response hreads))
      · refine System.Leads.head (.helper (@HelperMove.read p heard _ byte hreads)) ?_
        exact ih hnext nofun rfl rfl

theorem leads_writeResponse {byte : UInt8} {rest : Bytes}
    (hhelper : p.helper = .answering (byte :: rest)) :
    system.Leads ⟨phase, some p⟩ ⟨phase, some { p with
      helper := .reading [], stdout := p.stdout ++ byte :: rest }⟩ := by
  induction rest generalizing p byte with
  | nil =>
      rcases p with ⟨helper, stdin, stdout, asked, answered⟩
      obtain rfl : helper = .answering [byte] := hhelper
      let p : Process := ⟨.answering [byte], stdin, stdout, asked, answered⟩
      exact .single (.helper (@HelperMove.writeLast p byte))
  | cons next rest ih =>
      rcases p with ⟨helper, stdin, stdout, asked, answered⟩
      obtain rfl : helper = .answering (byte :: next :: rest) := hhelper
      have hrest := @ih
        ⟨.answering (next :: rest), stdin, stdout ++ [byte], asked, answered⟩ next rfl
      simp only [List.append_assoc, List.singleton_append] at hrest
      let p : Process := ⟨.answering (byte :: next :: rest), stdin, stdout, asked, answered⟩
      exact System.Leads.head (.helper (@HelperMove.write p byte next rest)) hrest

theorem leads_readHeader {header more : Bytes} (hheader : header.length ≤ 5)
    (hstdout : p.stdout = header ++ more) :
    system.Leads ⟨.readingHeader call [], some p⟩
      ⟨.readingHeader call header, some { p with stdout := more }⟩ := by
  rcases p with ⟨helper, stdin, stdout, asked, answered⟩
  obtain rfl : stdout = header ++ more := hstdout
  refine System.Leads.consume (M := system) (f := fun header rest => ⟨.readingHeader call header,
    some ⟨helper, stdin, rest ++ more, asked, answered⟩⟩) ?_ (List.nil_append header)
  rintro moved byte rest rfl
  let p : Process := ⟨helper, stdin, byte :: (rest ++ more), asked, answered⟩
  simp only [List.length_append, List.length_cons] at hheader
  exact ⟨_, @Step.readHeader call moved (rest ++ more) byte p (by omega)⟩

theorem leads_readBody {status : UInt8} {length body : Bytes}
    (hlength : body.length = ofBigEndian length) (hstdout : p.stdout = body) :
    system.Leads ⟨.readingBody call status length [], some p⟩
      ⟨.readingBody call status length body, some { p with stdout := [] }⟩ := by
  rcases p with ⟨helper, stdin, stdout, asked, answered⟩
  obtain rfl : stdout = body := hstdout
  refine System.Leads.consume (M := system) (f := fun body rest =>
    ⟨.readingBody call status length body, some ⟨helper, stdin, rest, asked, answered⟩⟩) ?_
    (List.nil_append stdout)
  rintro moved byte rest rfl
  let p : Process := ⟨helper, stdin, byte :: rest, asked, answered⟩
  simp only [List.length_append, List.length_cons] at hlength
  exact ⟨_, @Step.readBody call status length moved rest byte p (by omega)⟩

theorem leads_answered (asked : List Call) (answered : List (Request × Response)) (call : Call)
    (response : Response) (hcall : call.request.payload.length ≤ maxClipboardText)
    (hresponse : response.payload.length ≤ maxClipboardText) :
    system.Leads ⟨.checking call, some ⟨.reading [], [], [], asked, answered⟩⟩
      ⟨.readingBody call response.status (bigEndian 4 response.payload.length) response.payload,
        some ⟨.reading [], [], [], asked ++ [call], answered ++ [(call.request, response)]⟩⟩ := by
  have hfull : exchangeBytes call.request = .ok (call.request.opcode ::
      bigEndian 4 call.request.payload.length ++ call.request.payload) :=
    if_neg (Nat.not_lt.mpr hcall)
  have hbegin : beginExchange call ⟨.reading [], [], [], asked, answered⟩ =
      ⟨.writing call (call.request.opcode ::
        bigEndian 4 call.request.payload.length ++ call.request.payload),
        some ⟨.reading [], [], [], asked ++ [call], answered⟩⟩ := by
    unfold beginExchange
    rw [hfull]
  have hlength : ofBigEndian (bigEndian 4 response.payload.length) = response.payload.length :=
    ofBigEndian_bigEndian 4 _ (Nat.lt_of_le_of_lt hresponse (by decide))
  refine System.Leads.head .running ?_
  rw [hbegin]
  refine (leads_write _).trans <| System.Leads.head .flush ?_
  refine (leads_answer response hfull (List.nil_append _) nofun rfl rfl).trans ?_
  refine (leads_writeResponse rfl).trans ?_
  have hheader : (response.status :: bigEndian 4 response.payload.length).length ≤ 5 := by simp
  refine (leads_readHeader hheader rfl).trans ?_
  have hallowed : ofBigEndian (bigEndian 4 response.payload.length) ≤ maxClipboardText :=
    hlength.le.trans hresponse
  refine System.Leads.head (.acceptLength (length_bigEndian ..) hallowed) ?_
  exact leads_readBody hlength.symm rfl

end Runs

def setResponse : Response := ⟨statusOk, [], by decide⟩
def textResponse : Response := ⟨statusOk, [104, 105], by decide⟩

/-- A text of three bytes, of whose request one byte has been written. -/
def canceledState : State :=
  ⟨.writing (.set [97, 98, 99]) [0, 0, 0, 3, 97, 98, 99],
    some ⟨.reading [], [2], [], [.set [97, 98, 99]], []⟩⟩

/-- Another helper has been given a text of two bytes and asked for it. -/
def pastedState : State :=
  ⟨.readingBody .get statusOk [0, 0, 0, 2] [104, 105],
    some ⟨.reading [], [], [], [.set [104, 105], .get],
      [(⟨opSet, [104, 105]⟩, setResponse), (⟨opGet, []⟩, textResponse)]⟩⟩

theorem leads_canceledState : system.Leads ⟨.idle, none⟩ canceledState :=
  System.Leads.head (@Step.start (.set [97, 98, 99])) <| System.Leads.head .running <|
    .single .write

theorem leads_pastedState : system.Leads canceledState pastedState := by
  have hset := leads_answered [] [] (.set [104, 105]) setResponse (by decide) (by decide)
  have hget := leads_answered [.set [104, 105]] [(⟨opSet, [104, 105]⟩, setResponse)] .get
    textResponse (by decide) (by decide)
  have hbetween := (hset.tail (.returns rfl (.inl rfl))).tail (@Step.take .get _)
  exact System.Leads.head (.fail rfl) <| System.Leads.head .start (hbetween.trans hget)

theorem answers_are_own_pasted :
    system.Leads canceledState pastedState ∧
      ∃ p response, pastedState.process = some p ∧ p.Answers .get response ∧
        response.status = statusOk ∧ response.payload = [104, 105] := by
  have hreachable : system.Reachable pastedState :=
    ⟨_, rfl, leads_canceledState.trans leads_pastedState⟩
  exact ⟨leads_pastedState,
    (answers_are_own hreachable).1 .get statusOk [104, 105] _ (.returns rfl (.inl rfl))⟩

end SideWire.ClipboardHelper
