import CppGate.HttpClient.Reports
import CppGate.HttpClient.Retries
import CppGate.HttpClient.Completion

/-!
# The counters behind the reports

Each direction of a call has one counter, `upDone` and `downDone`, and progress() reports it when
enough was transferred since the last report, or enough time has passed (`Call.Due`), or when the
request or the response is complete. While a step is outstanding, `Reports` says what was reported
on this attempt, on the one before, and how the counters stand to it; `Next` is what a step keeps.

The steps up to the first octet are here: none of them reports anything.
-/

namespace CppGate.HttpClient

open Http

universe u v

variable {κ : Type u} {ρ : Type v}

/-! ### Conditions on the steps -/

/-- What the parser promises: no more of a body than Content-Length announces, and never less than
before. -/
def Parses (s : Sending κ ρ) : Event κ ρ → Prop
  | .headerRead (.ok message) _ =>
    ∀ total, message.contentLength = some total → s.call.method ≠ .head → message.bodySize ≤ total
  | .bodyRead (.ok message) _ =>
    ∀ before, s.call.parser = some (.message before) → before.bodySize ≤ message.bodySize ∧
      ∀ total, before.contentLength = some total → s.call.method ≠ .head →
        message.contentLength = some total ∧ message.bodySize ≤ total
  | _ => True

/-- The first attempt is tried again although it had written the whole body. -/
def RetriesWritten (s : Sending κ ρ) : Event κ ρ → Prop
  | .headerRead (.error (ec, parser)) _ => s.body ≠ [] ∧ s.call.aborted = none ∧
      ec ∉ [.bodyLimit, .bufferOverflow, .timeout] ∧
        Call.retries { s.call with parser := some parser } false = true
  | _ => False

/-- The second attempt has written less than the first one had when it reported last, and it is time
for a report. -/
def ReportsLess (s : Sending κ ρ) (n : Notes) : Event κ ρ → Prop
  | .bodyWritten (.ok (m, _)) now => s.body ≠ [] ∧ s.call.retried = true ∧
      s.call.upDone + m < n.earlier ∧
        (64 * 1024 ≤ Word.sub 64 (s.call.upDone + m) s.call.reportedBytes ∨
          100 * 1000000 ≤ now - s.call.reportedAt)
  | _ => False

instance (P : Message ρ → Prop) [DecidablePred P] : ∀ parser : Option (Parser ρ),
    Decidable (∀ before, parser = some (.message before) → P before)
  | some (.message message) =>
    decidable_of_iff (P message) ⟨fun h _ heq ↦ by cases heq; exact h, fun h ↦ h message rfl⟩
  | some .fresh | some .started | none => .isTrue nofun

instance (s : Sending κ ρ) : DecidablePred (Parses s)
  | .headerRead (.ok message) _ => inferInstanceAs (Decidable
      (∀ total ∈ message.contentLength, s.call.method ≠ .head → message.bodySize ≤ total))
  | .bodyRead (.ok message) _ => inferInstanceAs (Decidable
      (∀ before, s.call.parser = some (.message before) → before.bodySize ≤ message.bodySize ∧
        ∀ total ∈ before.contentLength, s.call.method ≠ .head →
          message.contentLength = some total ∧ message.bodySize ≤ total))
  | .headerRead (.error _) _ | .bodyRead (.error _) _ | .begin .. | .refuse | .resolved _
  | .connected _ | .handshaken _ | .headerWritten .. | .bodyWritten .. | .abort _ => .isTrue trivial

instance (s : Sending κ ρ) : DecidablePred (RetriesWritten s)
  | .headerRead (.error (_, _)) _ => inferInstanceAs (Decidable (_ ∧ _ ∧ _ ∧ _))
  | .headerRead (.ok _) _ | .begin .. | .refuse | .resolved _ | .connected _ | .handshaken _
  | .headerWritten .. | .bodyWritten .. | .bodyRead .. | .abort _ => .isFalse id

instance (s : Sending κ ρ) (n : Notes) : DecidablePred (ReportsLess s n)
  | .bodyWritten (.ok (_, _)) _ => inferInstanceAs (Decidable (_ ∧ _ ∧ _ ∧ _))
  | .bodyWritten (.error _) _ | .begin .. | .refuse | .resolved _ | .connected _ | .handshaken _
  | .headerWritten .. | .headerRead .. | .bodyRead .. | .abort _ => .isFalse id

/-- Neither of the two things happens that a second attempt does to the reports of the first. -/
def Clean (s : Sending κ ρ) (n : Notes) (e : Event κ ρ) : Prop :=
  ¬RetriesWritten s e ∧ ¬ReportsLess s n e

instance (s : Sending κ ρ) (n : Notes) (e : Event κ ρ) : Decidable (Clean s n e) :=
  inferInstanceAs (Decidable (_ ∧ _))

/-! ### One report -/

namespace Call

variable {s : Call κ ρ} {direction : Direction} {done : ℕ} {total : Option ℕ} {last : Bool}
  {now : Time}

/-- Whether progress() reports. -/
def Due (s : Call κ ρ) (done : ℕ) (last : Bool) (now : Time) : Prop :=
  last = true ∨ 64 * 1024 ≤ Word.sub 64 done s.reportedBytes ∨ 100 * 1000000 ≤ now - s.reportedAt

/-- A report that is due is made. -/
theorem progress_of_due (hset : s.onProgress = true) (hdue : s.Due done last now) :
    s.progress direction done total last now = { s with
      reportedBytes := done
      reportedAt := now
      progressed := s.progressed ++ [⟨direction, done, total⟩] } := by
  have hgo : (!last && decide (Word.sub 64 done s.reportedBytes < 64 * 1024) &&
      decide (now - s.reportedAt < 100 * 1000000)) = false := by
    rcases hdue with rfl | hbytes | htime
    · rfl
    · rw [decide_eq_false (not_lt.2 hbytes), Bool.and_false, Bool.false_and]
    · rw [decide_eq_false (p := now - s.reportedAt < _) (not_lt.2 htime), Bool.and_false]
  rw [progress, hset, hgo]
  rfl

theorem progress_of_not_due (hdue : ¬s.Due done last now) :
    s.progress direction done total last now = s := by
  simp only [Due, not_or, Bool.not_eq_true, not_le] at hdue
  obtain ⟨hlast, hbytes, htime⟩ := hdue
  have hwait : (!last && decide (Word.sub 64 done s.reportedBytes < 64 * 1024) &&
      decide (now - s.reportedAt < 100 * 1000000)) = true := by
    rw [hlast, decide_eq_true hbytes, decide_eq_true htime]
    rfl
  rw [progress, hwait, if_pos rfl, ite_self]

/-! ### The handlers -/

/-- A failure that allows a second attempt starts it with nothing written. -/
theorem fail_of_retries (haborted : s.aborted = none) {ec : ErrorCode}
    (hec : ec ∉ [.bodyLimit, .bufferOverflow, .timeout]) {duringWrite : Bool}
    (hretries : s.retries duringWrite = true) :
    s.fail ec duringWrite = resolve { s with
      retried := true
      reused := false
      conn := none
      upDone := 0
      reportedBytes := 0
      parser := none } := by
  simp only [List.mem_cons, List.not_mem_nil, or_false, not_or] at hec
  rw [fail, haborted]
  dsimp only
  rw [if_neg (not_or.2 ⟨hec.1, hec.2.1⟩), if_neg hec.2.2, if_pos hretries]

/-- A request without a body has no upload to report. -/
theorem onWritten_of_empty (hbody : s.bodySize = 0) (n : ℕ) (isDone : Bool) (now : Time) :
    s.onWritten n isDone now = writeBody { s with upDone := s.upDone + n } isDone now := by
  rw [onWritten, if_neg (not_not.2 hbody)]

/-- A write after which a report is due. -/
theorem onWritten_of_due (hset : s.onProgress = true) (hbody : s.bodySize ≠ 0) {n : ℕ} {now : Time}
    (hdue : s.Due (s.upDone + n) false now) (isDone : Bool) :
    s.onWritten n isDone now = writeBody { s with
      upDone := s.upDone + n
      reportedBytes := s.upDone + n
      reportedAt := now
      progressed := s.progressed ++ [⟨.upload, s.upDone + n, some s.bodySize⟩] } isDone now := by
  rw [onWritten, if_pos hbody, progress_of_due (s := { s with upDone := s.upDone + n }) hset hdue]

theorem onWritten_of_not_due (hbody : s.bodySize ≠ 0) {n : ℕ} {now : Time}
    (hdue : ¬s.Due (s.upDone + n) false now) (isDone : Bool) :
    s.onWritten n isDone now = writeBody { s with upDone := s.upDone + n } isDone now := by
  rw [onWritten, if_pos hbody, progress_of_not_due (s := { s with upDone := s.upDone + n }) hdue]

/-- The request is complete, and its upload is reported if there is a body. -/
theorem writeBody_done (hset : s.onProgress = true) (hbody : s.bodySize ≠ 0) (now : Time) :
    s.writeBody true now = await { s with
      reportedBytes := 0
      reportedAt := now
      parser := some .fresh
      progressed := s.progressed ++ [⟨.upload, s.upDone, some s.bodySize⟩] } .readHeader := by
  rw [writeBody, if_pos rfl, if_pos hbody, progress_of_due hset (Or.inl rfl)]
  rfl

/-- A request without a body reports no upload. -/
theorem writeBody_done_empty (hbody : s.bodySize = 0) (now : Time) :
    s.writeBody true now = await { s with
      reportedBytes := 0
      parser := some .fresh } .readHeader := by
  rw [writeBody, if_pos rfl, if_neg (not_not.2 hbody)]
  rfl

theorem succeed_done (hfinished : s.finished = false) (message : Message ρ) :
    (s.succeed message).progressed = s.progressed ∧ (s.succeed message).finished = true ∧
      (s.succeed message).retried = s.retried := by
  have hgo : ¬s.finished = true := Bool.eq_false_iff.1 hfinished
  rw [succeed]
  split
  · rw [finish, if_neg hgo]
    exact ⟨rfl, rfl, rfl⟩
  · rw [finish, if_neg hgo]
    exact ⟨rfl, rfl, rfl⟩

/-- The response is complete, is reported, and ends the call. -/
theorem readBody_done (hset : s.onProgress = true) (hfinished : s.finished = false)
    {message : Message ρ} (hdone : message.isDone = true) (now : Time) :
    (s.readBody message now).progressed = s.progressed ++
        [⟨.download, message.bodySize, some (s.downTotal.getD message.bodySize)⟩] ∧
      (s.readBody message now).finished = true ∧ (s.readBody message now).retried = s.retried := by
  rw [readBody, if_pos hdone]
  dsimp only
  rw [progress_of_due (s := { s with downDone := message.bodySize }) hset (Or.inl rfl)]
  exact succeed_done (s := { s with
    downDone := message.bodySize
    reportedBytes := message.bodySize
    reportedAt := now
    progressed := s.progressed ++
      [⟨.download, message.bodySize, some (s.downTotal.getD message.bodySize)⟩] }) hfinished message

theorem readBody_goes_on {message : Message ρ} (hdone : message.isDone = false) (now : Time) :
    s.readBody message now = s.await .readBody := by
  rw [readBody, if_neg (Bool.eq_false_iff.1 hdone)]

/-- A read after which a report is due. -/
theorem onBody_of_due (hset : s.onProgress = true) {message : Message ρ} {now : Time}
    (hdue : s.Due message.bodySize false now) :
    s.onBody message now = readBody { s with
      parser := some (.message message)
      downDone := message.bodySize
      reportedBytes := message.bodySize
      reportedAt := now
      progressed := s.progressed ++ [⟨.download, message.bodySize, s.downTotal⟩] } message now := by
  rw [onBody, progress_of_due (s := { s with
    parser := some (.message message), downDone := message.bodySize }) hset hdue]

theorem onBody_of_not_due {message : Message ρ} {now : Time}
    (hdue : ¬s.Due message.bodySize false now) :
    s.onBody message now = readBody { s with
      parser := some (.message message)
      downDone := message.bodySize } message now := by
  rw [onBody, progress_of_not_due (s := { s with
    parser := some (.message message), downDone := message.bodySize }) hdue]

end Call

/-! ### The invariant -/

/-- The attempt has reported nothing yet. -/
def Unreported (c : Call κ ρ) (n : Notes) : Prop :=
  n.reports = n.first ∧ c.upDone = 0 ∧ c.reportedBytes = 0 ∧ c.downTotal = none

/-- An attempt that is writing: what it reported, and how much is left. -/
structure Writing (s : Sending κ ρ) (n : Notes) (second : List Report) : Prop where
  reports : n.reports = n.first ++ second
  left : s.call.upDone + s.left.length = s.body.length
  bytes : s.call.reportedBytes ≤ s.call.upDone
  total : s.call.downTotal = none
  underway : Underway s.body s.call.reportedBytes second

/-- What was reported while a step is outstanding. -/
def Phase (s : Sending κ ρ) (n : Notes) : Op → Prop
  | .start | .refuse | .resolve | .connect | .handshake => Unreported s.call n
  | .writeHeader => Unreported s.call n ∧ s.left = s.octets
  | .writeBody =>
    ∃ second, Writing s n second
  | .readHeader =>
    ∃ second, n.reports = n.first ++ second ∧ s.call.reportedBytes = 0 ∧ s.call.downTotal = none ∧
      Uploaded s.body second
  | .readBody =>
    ∃ second downs message, n.reports = n.first ++ second ++ downs ∧ Uploaded s.body second ∧
      s.call.parser = some (.message message) ∧
      (∀ known, s.call.downTotal = some known → message.contentLength = some known ∧
        s.call.method ≠ .head ∧ message.bodySize ≤ known) ∧
          Course .download s.call.downTotal message.bodySize downs

/-- The invariant of a call and the notes on it. -/
structure Reports (s : Sending κ ρ) (n : Notes) : Prop where
  progressed : s.call.progressed = n.reports.map (·.progress)
  running : s.call.finished = false → s.call.onProgress = true ∧
    s.call.bodySize = s.body.length ∧ Before s.body n ∧ (s.call.retried = false → n.first = []) ∧
      ∀ op ∈ s.call.pending, Phase s n op
  succeeded : ∀ response, .response response ∈ s.call.promise → Before s.body n ∧
    ∃ second downs, n.reports = n.first ++ second ++ downs ∧ Uploaded s.body second ∧
      Completed .download downs

/-! ### Steps -/

section Steps

variable {s s' : Sending κ ρ} {n : Notes} {e : Event κ ρ} {c : Call κ ρ}

/-- What a step has to keep, and what it makes of the second attempt. -/
def Next (s : Sending κ ρ) (n : Notes) (e : Event κ ρ) (s' : Sending κ ρ) : Prop :=
  Reports s' (n.after s e s') ∧ (Sound (n.after s e s') ↔ Sound n ∧ Clean s n e)

/-- A handler of the call runs. -/
structure Runs (s : Sending κ ρ) (c : Call κ ρ) : Prop where
  pending : c.pending = []
  finished : c.finished = false
  promise : c.promise = []
  progressed : c.progressed = s.call.progressed
  onProgress : c.onProgress = true
  bodySize : c.bodySize = s.body.length
  retried : c.retried = s.call.retried
  method : c.method = s.call.method
  upDone : c.upDone = s.call.upDone
  reportedBytes : c.reportedBytes = s.call.reportedBytes
  reportedAt : c.reportedAt = s.call.reportedAt
  downTotal : c.downTotal = s.call.downTotal

/-- The call is over without a response. -/
theorem next_error (h : Reports s n) (hprogressed : s'.call.progressed = s.call.progressed)
    (hretried : s'.call.retried = s.call.retried) (hfinished : s'.call.finished = true)
    (hpromise : ∀ response, .response response ∉ s'.call.promise) (hclean : Clean s n e) :
    Next s n e s' := by
  have hafter : n.after s e s' = n := by
    rw [after_of_progressed hretried (hprogressed.trans (List.append_nil _).symm), reportsOf_nil,
      List.append_nil]
  rw [Next, hafter]
  refine ⟨⟨hprogressed.trans h.progressed, fun hrunning ↦ ?_, fun response hmem ↦ ?_⟩,
    (and_iff_left hclean).symm⟩
  · exact absurd (hrunning.symm.trans hfinished) Bool.false_ne_true
  · exact absurd hmem (hpromise response)

/-- A handler that ends the call with an error. -/
theorem Runs.finish (h : Reports s n) (hc : Runs s c) (error : ErrorCode)
    (hcall : s'.call = c.finish (.error error)) (hclean : Clean s n e) : Next s n e s' := by
  have heq : c.finish (.error error) = _ := if_neg (Bool.eq_false_iff.1 hc.finished)
  rw [heq] at hcall
  refine next_error h ?_ ?_ ?_ (fun response hmem ↦ ?_) hclean
  · rw [hcall]
    exact hc.progressed
  · rw [hcall]
    exact hc.retried
  · rw [hcall]
  · rw [hcall] at hmem
    have hmem' : Result.response response ∈ c.promise ++ [.error error] := hmem
    rw [hc.promise, List.nil_append, List.mem_singleton] at hmem'
    exact absurd hmem' nofun

/-- The call goes on with the next step. -/
theorem Runs.awaits (h : Reports s n) (hrunning : s.call.finished = false) (hc : Runs s c)
    {t : Call κ ρ} (hcall : s'.call = t) (hbody : s'.body = s.body) (op : Op)
    (hpending : t.pending = c.pending ++ [op]) (hpromise : t.promise = c.promise)
    (hfinished : t.finished = c.finished) (hset : t.onProgress = c.onProgress)
    (hsize : t.bodySize = c.bodySize) (hretried : t.retried = c.retried) {events : List Progress}
    (hprogressed : t.progressed = c.progressed ++ events)
    (hphase : Phase s' { n with reports := n.reports ++ reportsOf e.completes events } op)
    (hsound : Sound { n with reports := n.reports ++ reportsOf e.completes events } ↔
      Sound n ∧ Clean s n e) : Next s n e s' := by
  subst hcall
  have hprogressed' := hprogressed.trans (congrArg (· ++ events) hc.progressed)
  obtain ⟨-, -, hbefore, hfirst, -⟩ := h.running hrunning
  rw [Next, after_of_progressed (hretried.trans hc.retried) hprogressed']
  refine ⟨⟨?_, fun _ ↦ ⟨hset.trans hc.onProgress, ?_, ?_, fun hret ↦ ?_, fun op' hop ↦ ?_⟩,
    fun response hmem ↦ ?_⟩, hsound⟩
  · rw [hprogressed', h.progressed, List.map_append, map_progress_reportsOf]
  · rw [hsize, hc.bodySize, hbody]
  · rw [hbody]
    exact hbefore
  · exact hfirst (hc.retried.symm.trans (hretried.symm.trans hret))
  · rw [hpending, hc.pending, List.nil_append, List.mem_singleton] at hop
    exact hop ▸ hphase
  · rw [hpromise, hc.promise] at hmem
    exact absurd hmem List.not_mem_nil

/-- The step fails: the call is over, or it starts over. -/
theorem Runs.fails (h : Reports s n) (hrunning : s.call.finished = false) (hc : Runs s c)
    (ec : ErrorCode) (duringWrite : Bool) (hcall : s'.call = c.fail ec duringWrite)
    (hbody : s'.body = s.body)
    (hover : ¬(c.aborted = none ∧ ec ∉ [.bodyLimit, .bufferOverflow, .timeout] ∧
      c.retries duringWrite = true) → Clean s n e)
    (hretry : c.aborted = none → ec ∉ [.bodyLimit, .bufferOverflow, .timeout] →
      c.retries duringWrite = true → n.first = [] → s.call.downTotal = none ∧
        Before s.body { n with first := n.reports, earlier := s.call.reportedBytes } ∧
          ((∀ r ∈ n.reports, r.complete = false) ↔ Clean s n e)) : Next s n e s' := by
  by_cases hretries : c.aborted = none ∧ ec ∉ [.bodyLimit, .bufferOverflow, .timeout] ∧
      c.retries duringWrite = true
  · obtain ⟨haborted, hec, hretries⟩ := hretries
    have hunretried : s.call.retried = false := by
      have hnot := hretries
      simp only [Call.retries, Bool.and_eq_true, Bool.not_eq_true'] at hnot
      exact hc.retried.symm.trans hnot.1.1.2
    obtain ⟨-, -, -, hfirst, -⟩ := h.running hrunning
    obtain ⟨htotal, hbefore, hclean⟩ := hretry haborted hec hretries (hfirst hunretried)
    rw [Call.fail_of_retries haborted hec hretries] at hcall
    have hafter : n.after s e s' =
        { n with first := n.reports, earlier := s.call.reportedBytes } :=
      after_of_retry hunretried (by rw [hcall]; rfl)
    rw [Next, hafter]
    refine ⟨⟨?_, fun _ ↦ ⟨?_, ?_, hbody ▸ hbefore, fun hret ↦ ?_, fun op hop ↦ ?_⟩,
      fun response hmem ↦ ?_⟩, ?_⟩
    · rw [hcall]
      exact hc.progressed.trans h.progressed
    · rw [hcall]
      exact hc.onProgress
    · rw [hcall, hbody]
      exact hc.bodySize
    · rw [hcall] at hret
      exact Bool.noConfusion hret
    · rw [hcall] at hop
      have hop' : op ∈ c.pending ++ [.resolve] := hop
      rw [hc.pending, List.nil_append, List.mem_singleton] at hop'
      subst hop'
      rw [Phase, hcall]
      exact ⟨rfl, rfl, rfl, hc.downTotal.trans htotal⟩
    · rw [hcall] at hmem
      have hmem' : Result.response response ∈ c.promise := hmem
      rw [hc.promise] at hmem'
      exact absurd hmem' List.not_mem_nil
    · have hsound : Sound n := by
        rw [Sound, hfirst hunretried]
        exact ⟨fun _ hr ↦ absurd hr List.not_mem_nil, fun _ hr ↦ absurd hr List.not_mem_nil⟩
      rw [and_iff_right hsound, ← hclean, Sound, List.drop_length]
      exact and_iff_left fun _ _ _ hr' ↦ absurd hr' List.not_mem_nil
  · have herror : ∃ error, c.fail ec duringWrite = c.finish (.error error) := by
      rcases c.fail_eq ec duringWrite with hfinish | ⟨haborted, hec, hret, -⟩
      · exact hfinish
      · exact absurd ⟨haborted, hec, hret⟩ hretries
    obtain ⟨error, herror⟩ := herror
    exact hc.finish h error (hcall.trans herror) (hover hretries)

/-- A step that reports nothing. -/
theorem Runs.quiet (h : Reports s n) (hrunning : s.call.finished = false) (hc : Runs s c)
    {t : Call κ ρ} (hcall : s'.call = t) (hbody : s'.body = s.body) (op : Op)
    (hpending : t.pending = c.pending ++ [op]) (hpromise : t.promise = c.promise)
    (hfinished : t.finished = c.finished) (hset : t.onProgress = c.onProgress)
    (hsize : t.bodySize = c.bodySize) (hretried : t.retried = c.retried)
    (hprogressed : t.progressed = c.progressed) (hphase : Phase s' n op) (hclean : Clean s n e) :
    Next s n e s' := by
  have hsame : { n with reports := n.reports ++ reportsOf e.completes [] } = n := by
    rw [reportsOf_nil, List.append_nil]
  refine hc.awaits h hrunning hcall hbody op hpending hpromise hfinished hset hsize hretried
    (hprogressed.trans (List.append_nil _).symm) (hsame.symm ▸ hphase) ?_
  rw [hsame]
  exact (and_iff_left hclean).symm

/-- What is outstanding completes. -/
theorem Reports.runs (h : Reports s n) {onComplete : Bool} (hs : s.call.Settled onComplete)
    {op : Op} (hmem : op ∈ s.call.pending) :
    s.call.finished = false ∧ Runs s (s.call.complete op) ∧ Phase s n op := by
  rcases hs with ⟨hrunning, ⟨op', hpending, -⟩, hpromise, -⟩ | ⟨-, hpending, -⟩
  · obtain ⟨hset, hsize, -, -, hphase⟩ := h.running hrunning
    obtain rfl : op = op' := by rwa [hpending, List.mem_singleton] at hmem
    refine ⟨hrunning, ⟨?_, hrunning, hpromise, rfl, hset, hsize, rfl, rfl, rfl, rfl, rfl, rfl⟩,
      hphase op hmem⟩
    rw [Call.complete_pending, hpending, List.erase_cons_head]
  · rw [hpending] at hmem
    exact absurd hmem List.not_mem_nil

/-- Before anything was written, a failure leaves nothing behind. -/
theorem Runs.fails_unreported (h : Reports s n) (hrunning : s.call.finished = false)
    (hc : Runs s c) (hunreported : Unreported s.call n) (ec : ErrorCode) (duringWrite : Bool)
    (hcall : s'.call = c.fail ec duringWrite) (hbody : s'.body = s.body) (hclean : Clean s n e) :
    Next s n e s' := by
  refine hc.fails h hrunning ec duringWrite hcall hbody (fun _ ↦ hclean) fun _ _ _ hfirst ↦ ?_
  obtain ⟨hreports, -, hbytes, htotal⟩ := hunreported
  rw [hfirst] at hreports
  refine ⟨htotal, ?_, ?_⟩
  · rw [hreports, hbytes]
    exact Or.inl (underway_nil _)
  · rw [hreports]
    exact iff_of_true (fun _ hr ↦ absurd hr List.not_mem_nil) hclean

variable {onComplete : Bool}

/-- begin() reports nothing. -/
theorem next_begin (h : Reports s n) (hs : s.call.Settled onComplete)
    (hmem : .start ∈ s.call.pending) (target : Except ErrorCode Target) (idle : Option κ) :
    Next s n (.begin target idle) (s.goOn (.begin target idle)
      (Call.begin { s.call.complete .start with begun := true } target idle)) := by
  obtain ⟨hrunning, hruns, hphase⟩ := h.runs hs hmem
  have hc : Runs s { s.call.complete .start with begun := true } :=
    ⟨hruns.pending, hruns.finished, hruns.promise, hruns.progressed, hruns.onProgress,
      hruns.bodySize, rfl, rfl, rfl, rfl, rfl, rfl⟩
  have hfresh : Unreported s.call n := hphase
  rcases target with error | target
  · exact hc.finish h error (goOn_call ..) ⟨id, id⟩
  · rcases idle with _ | conn
    · refine hc.quiet h hrunning (goOn_call ..) (goOn_body ..) .resolve rfl rfl rfl rfl rfl rfl
        rfl ?_ ⟨id, id⟩
      rw [Phase, goOn_call]
      exact hfresh
    · refine hc.quiet h hrunning (goOn_call ..) (goOn_body ..) .writeHeader rfl rfl rfl rfl rfl
        rfl rfl ?_ ⟨id, id⟩
      have hwrites : Op.writeHeader ∈ (Call.begin { s.call.complete .start with begun := true }
          (.ok target) (some conn)).pending := List.mem_append_right _ (List.mem_singleton_self _)
      rw [Phase, Sending.goOn_of_start rfl rfl hwrites]
      exact ⟨hfresh, rfl⟩

theorem next_refuse (h : Reports s n) (hs : s.call.Settled onComplete)
    (hmem : .refuse ∈ s.call.pending) :
    Next s n .refuse (s.goOn .refuse
      (Call.finish { s.call.complete .refuse with begun := true } (.error (.client .closed)))) := by
  obtain ⟨hrunning, hruns, -⟩ := h.runs hs hmem
  have hc : Runs s { s.call.complete .refuse with begun := true } :=
    ⟨hruns.pending, hruns.finished, hruns.promise, hruns.progressed, hruns.onProgress,
      hruns.bodySize, rfl, rfl, rfl, rfl, rfl, rfl⟩
  exact hc.finish h _ (goOn_call ..) ⟨id, id⟩

theorem next_resolved (h : Reports s n) (hs : s.call.Settled onComplete)
    (hmem : .resolve ∈ s.call.pending) (result : Except ErrorCode κ) :
    Next s n (.resolved result)
      (s.goOn (.resolved result) ((s.call.complete .resolve).handle (.resolved result))) := by
  obtain ⟨hrunning, hc, hphase⟩ := h.runs hs hmem
  have hfresh : Unreported s.call n := hphase
  rcases result with ec | conn
  · exact hc.fails_unreported h hrunning hfresh ec false (goOn_call ..) (goOn_body ..) ⟨id, id⟩
  · rw [Call.handle, Call.onResolve]
    split
    · exact hc.finish h _ (goOn_call ..) ⟨id, id⟩
    · refine hc.quiet h hrunning (goOn_call ..) (goOn_body ..) .connect rfl rfl rfl rfl rfl rfl
        rfl ?_ ⟨id, id⟩
      rw [Phase, goOn_call]
      exact hfresh

/-- The request is about to be written. -/
theorem Runs.writes (h : Reports s n) (hrunning : s.call.finished = false) (hc : Runs s c)
    (hfresh : Unreported s.call n) (hfailure : e.failure s.call.aborted.isSome = none)
    (hop : e.op.isSome = true) (hclean : Clean s n e) : Next s n e (s.goOn e c.writeHeader) := by
  have hwrites : Op.writeHeader ∈ c.writeHeader.pending :=
    List.mem_append_right _ (List.mem_singleton_self _)
  refine hc.quiet h hrunning (goOn_call ..) (goOn_body ..) .writeHeader rfl rfl rfl rfl rfl
    rfl rfl ?_ hclean
  rw [Phase, Sending.goOn_of_start hfailure hop hwrites]
  exact ⟨⟨hfresh.1, hc.upDone.trans hfresh.2.1, hc.reportedBytes.trans hfresh.2.2.1,
    hc.downTotal.trans hfresh.2.2.2⟩, rfl⟩

theorem next_connected (h : Reports s n) (hs : s.call.Settled onComplete)
    (hmem : .connect ∈ s.call.pending) (result : Except ErrorCode (Except ErrorCode Unit)) :
    Next s n (.connected result)
      (s.goOn (.connected result) ((s.call.complete .connect).handle (.connected result))) := by
  obtain ⟨hrunning, hc, hphase⟩ := h.runs hs hmem
  have hfresh : Unreported s.call n := hphase
  rcases result with ec | sni
  · exact hc.fails_unreported h hrunning hfresh ec false (goOn_call ..) (goOn_body ..) ⟨id, id⟩
  · rw [Call.handle]
    unfold Call.onConnect
    split
    · exact hc.writes h hrunning hfresh rfl rfl ⟨id, id⟩
    · rcases sni with ec | _
      · exact hc.finish h _ (goOn_call ..) ⟨id, id⟩
      · refine hc.quiet h hrunning (goOn_call ..) (goOn_body ..) .handshake rfl rfl rfl rfl rfl
          rfl rfl ?_ ⟨id, id⟩
        rw [Phase, goOn_call]
        exact hfresh

theorem next_handshaken (h : Reports s n) (hs : s.call.Settled onComplete)
    (hmem : .handshake ∈ s.call.pending) (result : Except ErrorCode Unit) :
    Next s n (.handshaken result)
      (s.goOn (.handshaken result) ((s.call.complete .handshake).handle (.handshaken result))) := by
  obtain ⟨hrunning, hc, hphase⟩ := h.runs hs hmem
  have hfresh : Unreported s.call n := hphase
  rcases result with ec | _
  · exact hc.fails_unreported h hrunning hfresh ec false (goOn_call ..) (goOn_body ..) ⟨id, id⟩
  · exact hc.writes h hrunning hfresh rfl rfl ⟨id, id⟩

end Steps

end CppGate.HttpClient
