/-
Attempts — what each of them takes out of the stream

    ahead    what is in the buffer, and then what the source still brings

A reader may be asked again whatever came of it the last time.  An attempt at
which no read fails is a matter of the bytes ahead alone, however they are cut:
it takes out a frame that is admitted, or a control frame that breaks the rules
for its kind, or nothing.  An attempt at which a read fails takes out nothing
either.  `Reader.Comes` has all that an attempt can come to.

Where a fault takes out nothing and no read has failed, it is in the buffer or
at the end of the stream, so it is found at every later attempt
(`Reader.attempts_exact`).
-/
import DeflateTrial.Proofs.Frame.Verdict

namespace DeflateTrial

namespace Source

/-- The reads that are going to fail, in order. -/
def failures (source : Source) : List String :=
  source.pending.filterMap fun
    | .bytes _ => none
    | .failure what => some what

theorem failures_of_read {source rest : Source} {r : Read} (h : source.read = (r, rest)) :
    source.failures = (match r with | .failure what => [what] | _ => []) ++ rest.failures := by
  obtain ⟨pending, ended⟩ := source
  match pending with
  | [] => cases ended <;> cases h <;> rfl
  | .bytes these :: pending =>
      cases h
      rfl
  | .failure what :: pending =>
      cases h
      rfl

theorem eq_of_endOfStream {source rest : Source} (h : source.read = (.endOfStream, rest)) :
    source = .ofPieces [] ∧ rest = source := by
  obtain ⟨pending, ended⟩ := source
  match pending, ended with
  | [], true =>
      cases h
      exact ⟨rfl, rfl⟩
  | [], false => cases h
  | .bytes _ :: _, _ => cases h
  | .failure _ :: _, _ => cases h

theorem eq_of_waiting {source rest : Source} (h : source.read = (.waiting, rest)) :
    source = .silent ∧ rest = source := by
  obtain ⟨pending, ended⟩ := source
  match pending, ended with
  | [], true => cases h
  | [], false =>
      cases h
      exact ⟨rfl, rfl⟩
  | .bytes _ :: _, _ => cases h
  | .failure _ :: _, _ => cases h

end Source

namespace Frame.Reader

/-- The reader with all the bytes ahead in its buffer. -/
def overall (reader : Reader) (source : Source) : Reader :=
  reader.fed source.bytes

/-! ## One attempt -/

/-- What an attempt can come to, given the reader with all the bytes ahead in its buffer, the
reads that are going to fail, and whether the stream has ended: the outcome, and the reader and
the source after it. -/
inductive Comes (all : Reader) (failures : List String) (closed : Bool) :
    Outcome → Reader → Source → Prop where
  | frame {frame : Frame} {rest : Bytes} {reader : Reader} {source : Source}
      (found : all.scan = .frame frame rest)
      (left : reader.overall source = { all with buffer := rest })
      (even : source.failures = failures) :
      Comes all failures closed (.frame frame) reader source
  | spent {fault : Fault} {rest : Bytes} {reader : Reader} {source : Source}
      (found : all.scan = .spent fault rest)
      (left : reader.overall source = { all with buffer := rest })
      (even : source.failures = failures) :
      Comes all failures closed (.fault fault) reader source
  /-- A fault in the buffer: the next attempt begins with it. -/
  | lasting {fault : Fault} {reader : Reader} {source : Source}
      (found : reader.scan = .fault fault) (left : reader.overall source = all)
      (even : source.failures = failures) :
      Comes all failures closed (.fault fault) reader source
  /-- A read fails, and what was read before it is in the buffer. -/
  | failed {what : String} {reader : Reader} {source : Source}
      (left : reader.overall source = all) (fewer : failures = what :: source.failures) :
      Comes all failures closed (.fault (.io what)) reader source
  | ended (empty : all.buffer = []) (last : failures = []) (shut : closed = true) :
      Comes all failures closed .ended all (.ofPieces [])
  /-- The stream ends inside a frame. -/
  | cutShort (found : all.scan = .more) (inside : all.buffer ≠ []) (last : failures = [])
      (shut : closed = true) :
      Comes all failures closed (.fault all.cutShort) all (.ofPieces [])
  | waiting (found : all.scan = .more) (last : failures = []) (live : closed = false) :
      Comes all failures closed .waiting all .silent

theorem overall_of_read {reader : Reader} {source rest : Source} {bytes : Bytes}
    (read : source.read = (.bytes bytes, rest)) :
    overall { reader with buffer := reader.buffer ++ bytes } rest = reader.overall source := by
  rw [overall, overall, Source.bytes_of_read read, ← fed_fed]
  rfl

theorem comes_next (reader : Reader) (source : Source) :
    Comes (reader.overall source) source.failures source.ended (reader.next source).1
        (reader.next source).2.1 (reader.next source).2.2 ∧
      (reader.next source).2.2.ended = source.ended := by
  fun_induction next reader source with
  | case1 reader source frame rest scanned =>
      have found := scan_fed source.bytes (by rw [scanned]; exact Scan.noConfusion)
      rw [scanned] at found
      exact ⟨.frame found rfl rfl, rfl⟩
  | case2 reader source fault scanned => exact ⟨.lasting scanned rfl rfl, rfl⟩
  | case3 reader source fault rest scanned =>
      have found := scan_fed source.bytes (by rw [scanned]; exact Scan.noConfusion)
      rw [scanned] at found
      exact ⟨.spent found rfl rfl, rfl⟩
  | case4 reader source scanned bytes source' read ih =>
      obtain ⟨comes, live⟩ := ih
      rw [overall_of_read read, Source.ended_of_read read] at comes
      rw [Source.failures_of_read read]
      exact ⟨comes, live.trans (Source.ended_of_read read)⟩
  | case5 reader source scanned what source' read =>
      refine ⟨.failed ?_ (Source.failures_of_read read), Source.ended_of_read read⟩
      rw [overall, overall, Source.bytes_of_read read]
      rfl
  | case6 reader source scanned source' read =>
      obtain ⟨rfl, rfl⟩ := Source.eq_of_endOfStream read
      have all : reader.overall (.ofPieces []) = reader := fed_nil reader
      have shut : (Source.ofPieces []).ended = true := rfl
      by_cases empty : reader.buffer = []
      · have comes := Comes.ended (all.symm ▸ empty) rfl shut
        rw [all] at comes ⊢
        rw [empty]
        exact ⟨comes, rfl⟩
      · have comes := Comes.cutShort (all.symm ▸ scanned) (all.symm ▸ empty) rfl shut
        rw [all] at comes ⊢
        rw [if_neg (by rwa [List.isEmpty_iff])]
        exact ⟨comes, rfl⟩
  | case7 reader source scanned source' read =>
      obtain ⟨rfl, rfl⟩ := Source.eq_of_waiting read
      have all : reader.overall .silent = reader := fed_nil reader
      have comes := Comes.waiting (all.symm ▸ scanned) rfl (Source.live_of_waiting read)
      rw [all] at comes ⊢
      exact ⟨comes, rfl⟩

variable {reader reader' : Reader} {source source' : Source} {head : Head} {frame : Frame}
  {fault : Fault} {outcome : Outcome} {bytes : Bytes}

theorem Admits.rebuffer (buffer : Bytes) (admits : reader.Admits bytes head frame) :
    Admits { reader with buffer } bytes head frame :=
  ⟨admits.headed, admits.whole, admits.masked, admits.rsv2, admits.rsv3, admits.rsv1,
    admits.size, admits.control⟩

theorem ofControl_of_scan_fault (found : reader.scan = .fault fault) :
    fault.ofControl = false := by
  have scanned := scanned_scan reader
  rw [found] at scanned
  cases scanned with
  | unknown unread final => exact Head.ofControl_of_parse unread
  | refused headed shows other => exact other
  | large => rfl

/-! ## What an attempt takes out -/

variable {failures : List String} {closed : Bool} {all : Reader}

theorem taken_of_frame (comes : Comes all failures closed (.frame frame) reader source) :
    ∃ head, all.Admits all.buffer head frame ∧
      reader.ahead source = all.buffer.drop head.frameSize := by
  cases comes with
  | frame found left even =>
      have scanned := scanned_scan all
      rw [found] at scanned
      cases scanned with
      | frame admits => exact ⟨_, admits, congrArg Reader.buffer left⟩

theorem taken_of_control (comes : Comes all failures closed (.fault fault) reader source)
    (control : fault.ofControl = true) :
    ∃ frame size, Frame.parse all.buffer = .ok (frame, size) ∧ frame.checkControl = .error fault ∧
      reader.ahead source = all.buffer.drop size := by
  cases comes with
  | spent found left even =>
      have scanned := scanned_scan all
      rw [found] at scanned
      cases scanned with
      | spent headed fits whole broken =>
          exact ⟨_, _, whole, broken, congrArg Reader.buffer left⟩
  | lasting found left even =>
      cases control.symm.trans (ofControl_of_scan_fault found)
  | failed left fewer => cases control
  | cutShort found inside last shut => cases control

/-- A fault of another kind takes out nothing.  Either a read has failed, or the next attempt is
where this one is and finds the fault again. -/
theorem kept_of_fault (comes : Comes all failures closed (.fault fault) reader source)
    (other : fault.ofControl = false) :
    reader.ahead source = all.buffer ∧
      ((∃ what, fault = .io what ∧ failures = what :: source.failures) ∨
        source.failures = failures ∧ reader.next source = (.fault fault, reader, source)) := by
  cases comes with
  | spent found left even =>
      have scanned := scanned_scan all
      rw [found] at scanned
      cases scanned with
      | spent headed fits whole broken =>
          cases other.symm.trans (ofControl_of_checkControl broken)
  | lasting found left even =>
      exact ⟨congrArg Reader.buffer left, .inr ⟨even, next_of_scan_fault found⟩⟩
  | failed left fewer => exact ⟨congrArg Reader.buffer left, .inl ⟨_, rfl, fewer⟩⟩
  | cutShort found inside last shut =>
      refine ⟨congrArg Reader.buffer (fed_nil _), .inr ⟨last.symm, ?_⟩⟩
      rw [next_of_scan_more_nil found, if_neg (by rwa [List.isEmpty_iff])]

theorem over_of_ended (comes : Comes all failures closed .ended reader source) :
    closed = true ∧ all.buffer = [] ∧ failures = [] := by
  cases comes with
  | ended empty last shut => exact ⟨shut, empty, last⟩

theorem outcome_of_scan (comes : Comes all failures closed outcome reader source)
    (even : source.failures = failures) :
    match all.scan with
    | .frame frame _ => outcome = .frame frame
    | .fault fault | .spent fault _ => outcome = .fault fault
    | .more => outcome = .ended ∨ outcome = .fault all.cutShort ∨ outcome = .waiting := by
  cases comes with
  | frame found left _ => rw [found]
  | spent found left _ => rw [found]
  | lasting found left _ =>
      have again := scan_fed source.bytes (by rw [found]; exact Scan.noConfusion)
      rw [found, ← overall, left] at again
      rw [again]
      rfl
  | failed left fewer =>
      rw [← even] at fewer
      exact absurd fewer.symm (List.cons_ne_self _ _)
  | ended empty last shut =>
      rw [scan, empty]
      exact .inl rfl
  | cutShort found inside last shut =>
      rw [found]
      exact .inr (.inl rfl)
  | waiting found last live =>
      rw [found]
      exact .inr (.inr rfl)

/-! ## Any number of attempts -/

/-- A reader and its stream after a number of attempts, whatever came of them. -/
def attempts (reader : Reader) (source : Source) : Nat → Reader × Source
  | 0 => (reader, source)
  | n + 1 => ((reader.attempts source n).1.next (reader.attempts source n).2).2

theorem alike_of_comes (comes : Comes all failures closed outcome reader source) :
    ∃ buffer, reader = { all with buffer } := by
  have rebuffered {buffer : Bytes} (left : reader.overall source = { all with buffer }) :
      ∃ buffer, reader = { all with buffer } := by
    refine ⟨reader.buffer, ?_⟩
    have same := congrArg (fun overall : Reader => { overall with buffer := reader.buffer }) left
    exact same
  cases comes with
  | frame found left even => exact rebuffered left
  | spent found left even => exact rebuffered left
  | lasting found left even => exact rebuffered left
  | failed left fewer => exact rebuffered left
  | ended | cutShort | waiting => exact ⟨_, rfl⟩

theorem alike_attempts (reader : Reader) (source : Source) (n : Nat) :
    (∃ buffer, (reader.attempts source n).1 = { reader with buffer }) ∧
      (reader.attempts source n).2.ended = source.ended := by
  induction n with
  | zero => exact ⟨⟨_, rfl⟩, rfl⟩
  | succ n ih =>
      obtain ⟨⟨buffer, same⟩, open_⟩ := ih
      obtain ⟨comes, shut⟩ := comes_next (reader.attempts source n).1 (reader.attempts source n).2
      obtain ⟨buffer', is⟩ := alike_of_comes comes
      refine ⟨⟨buffer', ?_⟩, shut.trans open_⟩
      rw [attempts, is, same]
      rfl

/-- What is admitted after some attempts is what was admitted before them. -/
theorem admits_attempts_iff (n : Nat) :
    ((reader.attempts source n).1.overall (reader.attempts source n).2).Admits bytes head frame ↔
      reader.Admits bytes head frame := by
  obtain ⟨⟨buffer, same⟩, -⟩ := alike_attempts reader source n
  rw [overall, same]
  exact ⟨Admits.rebuffer reader.buffer, Admits.rebuffer _⟩

theorem attempts_of_stuck {n m : Nat}
    (stuck : (reader.attempts source n).1.next (reader.attempts source n).2 =
      (.fault fault, reader.attempts source n)) (later : n ≤ m) :
    reader.attempts source m = reader.attempts source n := by
  induction later with
  | refl => rfl
  | step _ ih => rw [attempts, ih, stuck]

/-- Let a reader be asked for frames any number of times, from any stream.

* A frame that it gives stood at the front of the bytes ahead and is admitted: its head has the
  direction of masking that the role asks for and the bits RSV2 and RSV3 clear, RSV1 is set only on
  a data frame and with compression, the payload is within the limit, and a control frame is final
  and not over 125 bytes.  Just this frame is taken out.
* A fault of a control frame takes out just the frame whose fault it is.
* Any other fault takes out nothing.  If it is not a read that fails, it is found at every later
  attempt.
* The end is found only where the stream has ended and no byte is left.
* An attempt at which no read fails gives the frame that is ahead, if it is admitted: so no byte is
  lost where one failed before, and behind a broken control frame the next one is found. -/
theorem attempts_exact (reader : Reader) (source : Source) :
    let after := reader.attempts source
    let outcome := fun n => ((after n).1.next (after n).2).1
    let ahead := fun n => (after n).1.ahead (after n).2
    let failures := fun n => (after n).2.failures
    (∀ n frame, outcome n = .frame frame → ∃ head, reader.Admits (ahead n) head frame ∧
      ahead (n + 1) = (ahead n).drop head.frameSize) ∧
    (∀ n fault, outcome n = .fault fault → fault.ofControl = true →
      ∃ frame size, Frame.parse (ahead n) = .ok (frame, size) ∧
        frame.checkControl = .error fault ∧ ahead (n + 1) = (ahead n).drop size) ∧
    (∀ n fault, outcome n = .fault fault → fault.ofControl = false →
      ahead (n + 1) = ahead n ∧
        ((∃ what, fault = .io what ∧ failures n = what :: failures (n + 1)) ∨
          ∀ m, n ≤ m → outcome m = .fault fault)) ∧
    (∀ n, outcome n = .ended → source.ended = true ∧ ahead n = [] ∧ failures n = []) ∧
    (∀ n head frame, failures (n + 1) = failures n → reader.Admits (ahead n) head frame →
      outcome n = .frame frame) := by
  intro after outcome ahead failures
  have comes (n : Nat) : Comes ((after n).1.overall (after n).2) (failures n) source.ended
      (outcome n) (after (n + 1)).1 (after (n + 1)).2 := by
    have comes := (comes_next (after n).1 (after n).2).1
    rw [(alike_attempts reader source n).2] at comes
    exact comes
  refine ⟨fun n frame is => ?_, fun n fault is control => ?_, fun n fault is other => ?_,
    fun n is => ?_, fun n head frame even admits => ?_⟩
  · have here := comes n
    rw [is] at here
    obtain ⟨head, admits, left⟩ := taken_of_frame here
    exact ⟨head, (admits_attempts_iff n).mp admits, left⟩
  · have here := comes n
    rw [is] at here
    exact taken_of_control here control
  · have here := comes n
    rw [is] at here
    obtain ⟨kept, why⟩ := kept_of_fault here other
    refine ⟨kept, why.imp id fun ⟨_, stuck⟩ m later => ?_⟩
    obtain rfl | later := Nat.eq_or_lt_of_le later
    · exact is
    · have same := attempts_of_stuck stuck later
      change ((reader.attempts source m).1.next (reader.attempts source m).2).1 = _
      rw [same]
      exact congrArg Prod.fst stuck
  · have here := comes n
    rw [is] at here
    exact over_of_ended here
  · have verdict := outcome_of_scan (comes n) even
    rw [scan_of_admits ((admits_attempts_iff n).mpr admits)] at verdict
    exact verdict

/-- A ping with a read that fails inside it, another that is a fragment, and a text. -/
theorem attempts_exact_resumed :
    let source : Source :=
      ⟨[.bytes [0x89], .failure "reset", .bytes [0x01, 65, 0x09, 0x00, 0x81, 0x01, 66]], true⟩
    let reader : Reader := .new .client {} []
    let after := reader.attempts source
    let outcome := fun n => ((after n).1.next (after n).2).1
    let ahead := fun n => (after n).1.ahead (after n).2
    outcome 0 = .fault (.io "reset") ∧ ahead 1 = ahead 0 ∧
    (∃ head, reader.Admits (ahead 1) head (Frame.ping [65]) ∧
      ahead 2 = (ahead 1).drop head.frameSize) ∧
    (∃ frame size, Frame.parse (ahead 2) = .ok (frame, size) ∧
      frame.checkControl = .error .fragmentedControlFrame ∧ ahead 3 = (ahead 2).drop size) ∧
    outcome 3 = .frame (Frame.text [66]) ∧
    outcome 4 = .ended ∧ ahead 4 = [] := by
  intro source reader after outcome ahead
  obtain ⟨taken, spent, kept, finish, found⟩ := attempts_exact reader source
  have failed : outcome 0 = .fault (.io "reset") := by decide +kernel
  have ping : outcome 1 = .frame (Frame.ping [65]) := by decide +kernel
  have broken : outcome 2 = .fault .fragmentedControlFrame := by decide +kernel
  have last : outcome 4 = .ended := by decide +kernel
  have behind : ahead 3 = [0x81, 0x01, 66] := by decide +kernel
  have even : (after 4).2.failures = (after 3).2.failures := by decide +kernel
  have admits : reader.Admits (ahead 3) ⟨true, false, false, false, .text, none, 1, 2⟩
      (Frame.text [66]) := by
    rw [behind]
    refine ⟨rfl, rfl, rfl, rfl, rfl, fun set => ?_, by decide, fun control => ?_⟩
    · cases set
    · cases control
  exact ⟨failed, (kept 0 _ failed rfl).1, taken 1 _ ping, spent 2 _ broken rfl,
    found 3 _ _ even admits, last, (finish 4 last).2.1⟩

end Frame.Reader

end DeflateTrial
