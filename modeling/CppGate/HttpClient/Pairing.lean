import CppGate.HttpClient.Client
import CppGate.HttpClient.Completion

/-!
# Every response belongs to its request

A call takes the first header it reads for the final response, gives the connection back, and leaves
whatever else arrives on it to the next call. `responses_paired` is what holds as long as servers
send no interim responses: then a connection is clean whenever no call waits for an answer on it, so
the next header is the answer to the request that was just written.
-/

namespace CppGate.HttpClient

open Http

variable {options : Options} {i : ℕ} {onComplete : Bool}

/-! ### The state of a connection -/

/-- Nothing of an earlier exchange is left on the connection. -/
def Connection.Clean (c : Connection) : Prop :=
  c.unanswered = [] ∧ c.wire = []

/-- Nothing of an earlier exchange is left, in the buffer neither. -/
def Link.Fresh (link : Link) : Prop :=
  link.connection.Clean ∧ link.buffer = []

/-- The request of call `i` has arrived: it is to be answered, or its final response has been sent
and none of it is read yet. -/
def Link.AskedBy (i : ℕ) (method : Verb) (link : Link) : Prop :=
  link.buffer = [] ∧
    ((link.connection.unanswered = [⟨i, method⟩] ∧ link.connection.wire = []) ∨
      (link.connection.unanswered = [] ∧ ∃ (r : Response) (n : ℕ), r.call = i ∧ r.interim = false ∧
        r.fits method n = true ∧ link.connection.wire = .header r :: List.replicate n .body))

/-- The final response to call `i` is being read: what is left of it is the rest of its body. -/
def Link.Answering (i : ℕ) (message : Message Response) (link : Link) : Prop :=
  message.response.call = i ∧ message.response.interim = false ∧ link.connection.unanswered = [] ∧
    ∀ n, message.response.length = some n → link.buffer ++ link.connection.wire =
      List.replicate (n - message.bodySize) .body

/-- What the connection of call `i` is like while the call waits for `op`. -/
def Link.During (i : ℕ) (method : Verb) (parser : Option (Parser Response)) (link : Link) :
    Op → Prop
  | .start | .refuse | .resolve => True
  | .connect | .handshake | .writeHeader => link.Fresh
  | .writeBody | .readHeader => link.AskedBy i method
  | .readBody => ∃ message, parser = some (.message message) ∧ link.Answering i message

/-- On a connection with nothing left on it, the request is the one that is answered. -/
theorem Link.Fresh.ask {link : Link} (h : link.Fresh) (method : Verb) :
    (link.ask ⟨i, method⟩).AskedBy i method := by
  obtain ⟨⟨hunanswered, hwire⟩, hbuffer⟩ := h
  refine ⟨hbuffer, Or.inl ⟨?_, hwire⟩⟩
  show link.connection.unanswered ++ [_] = _
  rw [hunanswered, List.nil_append]

/-! ### Reading -/

/-- The header that is read is the final response to the call's own request, and the rest of it is
its body; nothing is left of a response that ends with its header. -/
theorem Link.AskedBy.readHeader {link link' : Link} {method : Verb} {k : ℕ}
    {message : Message Response} (h : link.AskedBy i method)
    (hread : link.readHeader method k = some (message, link')) :
    message.response.call = i ∧ message.response.interim = false ∧
      (message.isDone = true → link'.connection.Clean) ∧
      (message.isDone = false → link'.Answering i message) := by
  obtain ⟨hbuffer, ⟨-, hwire⟩ | ⟨hunanswered, r, n, hcall, hfinal, hfits, hwire⟩⟩ := h
  · -- nothing was sent yet, so no header is complete
    rw [Link.readHeader, Link.arrived, hbuffer, hwire, List.take_nil] at hread
    exact absurd hread.symm (Option.some_ne_none _)
  rcases k with _ | k
  · rw [Link.readHeader, Link.arrived, hbuffer, List.take_zero] at hread
    exact absurd hread.symm (Option.some_ne_none _)
  rw [Link.readHeader, Link.arrived, hbuffer, hwire, List.nil_append, List.take_succ_cons] at hread
  obtain ⟨rfl, rfl⟩ := Prod.mk.inj (Option.some.inj hread)
  have hdrop : link.connection.wire.drop (k + 1) = (List.replicate n Piece.body).drop k := by
    rw [hwire, List.drop_succ_cons]
  have hrest : (List.replicate n Piece.body).take k ++ link.connection.wire.drop (k + 1) =
      List.replicate n .body := by
    rw [hdrop, List.take_append_drop]
  refine ⟨hcall, hfinal, fun hdone ↦ ⟨hunanswered, ?_⟩, fun hdone ↦ ?_⟩
  · have hn : n = 0 := by
      unfold Response.fits at hfits
      simp only [Bool.or_eq_true, beq_iff_eq] at hdone
      split at hfits
      · exact beq_iff_eq.1 hfits
      · next hbody =>
        rw [hdone.resolve_left hbody] at hfits
        exact (beq_iff_eq.1 hfits).symm
    show link.connection.wire.drop (k + 1) = []
    rw [hdrop, hn, List.replicate_zero, List.drop_nil]
  · simp only [Bool.or_eq_false_iff] at hdone
    refine ⟨hcall, hfinal, hunanswered, fun m hm ↦ ?_⟩
    have hnm : n = m := by
      rw [Response.fits, hdone.1, if_neg Bool.false_ne_true, hm] at hfits
      exact (beq_iff_eq.1 hfits).symm
    show _ ++ _ = List.replicate (m - 0) Piece.body
    rw [Nat.sub_zero, ← hnm]
    exact hrest

/-- What is read of the body is the response's own, and nothing is left once it is complete. -/
theorem Link.Answering.readBody {link link' : Link} {k j : ℕ} {eof : Bool}
    {message message' : Message Response} (h : link.Answering i message)
    (hread : link.readBody message k j eof = some (message', link')) :
    message'.response = message.response ∧
      (message'.isDone = true → link'.connection.Clean) ∧
      (message'.isDone = false → link'.Answering i message') := by
  obtain ⟨hcall, hfinal, hunanswered, hrest⟩ := h
  unfold Link.readBody at hread
  split at hread
  · exact absurd hread.symm (Option.some_ne_none _)
  next hj =>
  -- what stays is what was there without the pieces parsed
  have hleft : (link.arrived k).drop j ++ link.connection.wire.drop k =
      (link.buffer ++ link.connection.wire).drop j := by
    have hsplit : link.buffer ++ link.connection.wire =
        link.arrived k ++ link.connection.wire.drop k := by
      rw [Link.arrived, List.append_assoc, List.take_append_drop]
    rw [hsplit, List.drop_append_of_le_length (Nat.not_lt.1 hj)]
  dsimp only at hread
  split at hread
  · next n hn =>
    split at hread
    · exact absurd hread.symm (Option.some_ne_none _)
    next hle =>
    simp only [Bool.or_eq_true, decide_eq_true_eq, not_or, Nat.not_lt] at hle
    obtain ⟨rfl, rfl⟩ := Prod.mk.inj (Option.some.inj hread)
    rw [hrest n hn, List.drop_replicate] at hleft
    refine ⟨rfl, fun hdone ↦ ⟨hunanswered, ?_⟩, fun _ ↦ ⟨hcall, hfinal, hunanswered, fun m hm ↦ ?_⟩⟩
    · have hsize : n - message.bodySize - j = 0 := by
        have := beq_iff_eq.1 hdone
        omega
      rw [hsize, List.replicate_zero] at hleft
      exact (List.append_eq_nil_iff.1 hleft).2
    · obtain rfl : n = m := Option.some.inj (hn.symm.trans hm)
      rw [Nat.sub_sub] at hleft
      exact hleft
  · next hnone =>
    split at hread
    · exact absurd hread.symm (Option.some_ne_none _)
    next hend =>
    obtain ⟨rfl, rfl⟩ := Prod.mk.inj (Option.some.inj hread)
    refine ⟨rfl, fun hdone ↦ ⟨hunanswered, ?_⟩,
      fun _ ↦ ⟨hcall, hfinal, hunanswered, fun m hm ↦ ?_⟩⟩
    · obtain rfl : eof = true := hdone
      simp only [Bool.true_and, Bool.not_eq_true', Bool.not_eq_false, Bool.and_eq_true,
        List.isEmpty_iff] at hend
      exact hend.1.2
    · exact absurd (hnone.symm.trans hm).symm (Option.some_ne_none _)

/-! ### Serving -/

/-- Where no request waits for an answer, a server can only close the connection. -/
theorem Connection.serve_eq_of_nil {c c' : Connection} {reply : Reply} (h : c.unanswered = [])
    (hserve : c.serve reply = some c') : c' = { c with closed := true } := by
  unfold Connection.serve at hserve
  cases reply with
  | interim r =>
    rw [h] at hserve
    exact absurd hserve.symm (Option.some_ne_none _)
  | final r n =>
    rw [h] at hserve
    exact absurd hserve.symm (Option.some_ne_none _)
  | hangUp => exact (Option.some.inj hserve).symm

/-- Without a request to answer the server sends nothing. -/
theorem Connection.Clean.serve {c c' : Connection} (h : c.Clean) {reply : Reply}
    (hserve : c.serve reply = some c') : c'.Clean := by
  obtain rfl := Connection.serve_eq_of_nil h.1 hserve
  exact h

/-- While a request waits for its answer, the server answers it. -/
theorem Link.AskedBy.serve {link : Link} {method : Verb} {reply : Reply} {c : Connection}
    (h : link.AskedBy i method) (hreply : ∀ r, reply ≠ .interim r)
    (hserve : link.connection.serve reply = some c) :
    Link.AskedBy i method { link with connection := c } := by
  obtain ⟨hbuffer, ⟨hunanswered, hwire⟩ | ⟨hunanswered, hanswer⟩⟩ := h
  · refine ⟨hbuffer, ?_⟩
    unfold Connection.serve at hserve
    cases reply with
    | interim r => exact absurd rfl (hreply r)
    | hangUp =>
      obtain rfl := Option.some.inj hserve
      exact Or.inl ⟨hunanswered, hwire⟩
    | final r n =>
      rw [hunanswered] at hserve
      dsimp only at hserve
      split at hserve
      · next hok =>
        obtain rfl := Option.some.inj hserve
        exact Or.inr ⟨rfl, r, n, hok.2.1, hok.2.2.1, hok.2.2.2, by rw [hwire, List.nil_append]⟩
      · exact absurd hserve.symm (Option.some_ne_none _)
  · obtain rfl := Connection.serve_eq_of_nil hunanswered hserve
    exact ⟨hbuffer, Or.inr ⟨hunanswered, hanswer⟩⟩

/-- Once the final response is sent, the server has nothing more to say. -/
theorem Link.Answering.serve {link : Link} {message : Message Response} {reply : Reply}
    {c : Connection} (h : link.Answering i message)
    (hserve : link.connection.serve reply = some c) :
    Link.Answering i message { link with connection := c } := by
  obtain rfl := Connection.serve_eq_of_nil h.2.2.1 hserve
  exact h

/-- Whatever a call waits for, its connection stays as it should be. -/
theorem Link.During.serve {link : Link} {method : Verb} {parser : Option (Parser Response)}
    {op : Op} {reply : Reply} {c : Connection} (h : link.During i method parser op)
    (hreply : ∀ r, reply ≠ .interim r) (hserve : link.connection.serve reply = some c) :
    Link.During i method parser { link with connection := c } op := by
  cases op with
  | start | refuse | resolve => trivial
  | connect | handshake | writeHeader => exact ⟨h.1.serve hserve, h.2⟩
  | writeBody | readHeader => exact Link.AskedBy.serve h hreply hserve
  | readBody =>
    obtain ⟨message, hparser, hanswering⟩ := h
    exact ⟨message, hparser, hanswering.serve hserve⟩

/-! ### A call -/

/-- What a handler of call `i` leaves: no response but the call's own was delivered, a connection
that was given back is clean, and one that was kept fits what the call waits for. -/
structure CallOk (i : ℕ) (s : ClientCall) : Prop where
  paired : ∀ r, .response r ∈ s.promise → r.call = i ∧ r.interim = false
  released : ∀ link, s.released = some link → link.connection.Clean
  during : ∀ link, s.conn = some link → ∀ op ∈ s.pending, link.During i s.method s.parser op

namespace Call

variable {s t : ClientCall}

/-- A handler that ends the call with an error drops the connection. -/
theorem Running.callOk_error (h : Running onComplete s) (hreleased : s.released = none)
    (ec : ErrorCode) : CallOk i (s.finish (.error ec)) := by
  obtain ⟨hfinished, -, hpending, hpromise, -⟩ := h
  rw [Call.finish, hfinished, if_neg Bool.false_ne_true]
  refine ⟨fun r hr ↦ ?_, fun link hlink ↦ ?_, fun link hlink ↦ ?_⟩
  · rw [hpromise, List.nil_append, List.mem_singleton] at hr
    cases hr
  · exact absurd (hreleased.symm.trans hlink).symm (Option.some_ne_none _)
  · exact absurd hlink.symm (Option.some_ne_none _)

/-- A handler that starts the next step keeps a connection that fits it. -/
theorem Running.callOk_await (h : Running onComplete s) (hreleased : s.released = none) {op : Op}
    (hconn : ∀ link, s.conn = some link → link.During i s.method s.parser op) :
    CallOk i (s.await op) := by
  obtain ⟨-, -, hpending, hpromise, -⟩ := h
  refine ⟨fun r hr ↦ ?_, fun link hlink ↦ ?_, fun link hlink op' hop ↦ ?_⟩
  · rw [await_promise, hpromise] at hr
    exact absurd hr List.not_mem_nil
  · exact absurd (hreleased.symm.trans hlink).symm (Option.some_ne_none _)
  · rw [await_pending, hpending, List.nil_append, List.mem_singleton] at hop
    exact hop ▸ hconn link hlink

/-- A failure delivers no response. -/
theorem Running.callOk_fail (h : Running onComplete s) (hreleased : s.released = none)
    (ec : ErrorCode) (duringWrite : Bool) : CallOk i (s.fail ec duringWrite) := by
  rcases s.fail_eq ec duringWrite with ⟨error, heq⟩ | ⟨-, -, -, heq⟩
  · rw [heq]
    exact h.callOk_error hreleased error
  · rw [heq]
    have hretry : Running onComplete { s with
        retried := true, reused := false, conn := none, upDone := 0, reportedBytes := 0,
        parser := none } := h
    exact hretry.callOk_await hreleased fun link _ ↦ trivial

/-- A response to the call's own request is delivered, from a clean connection. -/
theorem Running.callOk_succeed (h : Running onComplete s) (hreleased : s.released = none)
    {message : Message Response} (hcall : message.response.call = i)
    (hfinal : message.response.interim = false)
    (hclean : ∀ link, s.conn = some link → link.connection.Clean) :
    CallOk i (s.succeed message) := by
  obtain ⟨hfinished, -, hpending, hpromise, -⟩ := h
  have hpaired : ∀ r, Result.response r ∈ s.promise ++ [.response message.response] →
      r.call = i ∧ r.interim = false := fun r hr ↦ by
    rw [hpromise, List.nil_append, List.mem_singleton] at hr
    obtain rfl := Result.response.inj hr
    exact ⟨hcall, hfinal⟩
  unfold Call.succeed
  dsimp only
  split
  · rw [Call.finish, hfinished, if_neg Bool.false_ne_true]
    exact ⟨hpaired, hclean, fun link hlink ↦ absurd hlink.symm (Option.some_ne_none _)⟩
  · rw [Call.finish, hfinished, if_neg Bool.false_ne_true]
    exact ⟨hpaired,
      fun link hlink ↦ absurd (hreleased.symm.trans hlink).symm (Option.some_ne_none _),
      fun link hlink ↦ absurd hlink.symm (Option.some_ne_none _)⟩

/-- What a call does with a message of its own final response: it succeeds, or reads on. -/
theorem Running.callOk_readBody (h : Running onComplete s) (hreleased : s.released = none)
    {message : Message Response} (hparser : s.parser = some (.message message))
    (hcall : message.response.call = i) (hfinal : message.response.interim = false)
    (hdone : message.isDone = true → ∀ link, s.conn = some link → link.connection.Clean)
    (hmore : message.isDone = false → ∀ link, s.conn = some link → link.Answering i message)
    (now : Time) : CallOk i (s.readBody message now) := by
  unfold Call.readBody
  dsimp only
  split
  · next hd =>
    obtain ⟨b, a, p, heq⟩ := progress_eq { s with downDone := message.bodySize } .download
      message.bodySize (some (s.downTotal.getD message.bodySize)) true now
    rw [heq]
    have hrun : Running onComplete { s with
        downDone := message.bodySize, reportedBytes := b, reportedAt := a, progressed := p } := h
    exact hrun.callOk_succeed hreleased hcall hfinal (hdone hd)
  · next hd =>
    exact h.callOk_await hreleased fun link hlink ↦
      ⟨message, hparser, hmore (Bool.eq_false_iff.2 hd) link hlink⟩

theorem Running.callOk_onBody (h : Running onComplete s) (hreleased : s.released = none)
    {message : Message Response} (hcall : message.response.call = i)
    (hfinal : message.response.interim = false)
    (hdone : message.isDone = true → ∀ link, s.conn = some link → link.connection.Clean)
    (hmore : message.isDone = false → ∀ link, s.conn = some link → link.Answering i message)
    (now : Time) : CallOk i (s.onBody message now) := by
  unfold Call.onBody
  dsimp only
  obtain ⟨b, a, p, heq⟩ := progress_eq
    { s with parser := some (.message message), downDone := message.bodySize } .download
    message.bodySize s.downTotal false now
  rw [heq]
  have hrun : Running onComplete { s with
      parser := some (.message message), downDone := message.bodySize, reportedBytes := b,
      reportedAt := a, progressed := p } := h
  exact hrun.callOk_readBody hreleased rfl hcall hfinal hdone hmore now

/-- Writing on, with the request being the last one asked. -/
theorem Running.callOk_writeBody (h : Running onComplete s) (hreleased : s.released = none)
    (hasked : ∀ link, s.conn = some link → link.AskedBy i s.method) (isDone : Bool) (now : Time) :
    CallOk i (s.writeBody isDone now) := by
  unfold Call.writeBody
  split
  · split
    · obtain ⟨b, a, p, heq⟩ := progress_eq s .upload s.upDone (some s.bodySize) true now
      rw [heq]
      have hrun : Running onComplete { s with
          reportedBytes := 0, reportedAt := a, progressed := p, parser := some .fresh } := h
      exact hrun.callOk_await hreleased hasked
    · have hrun : Running onComplete { s with reportedBytes := 0, parser := some .fresh } := h
      exact hrun.callOk_await hreleased hasked
  · exact h.callOk_await hreleased hasked

theorem Running.callOk_onWritten (h : Running onComplete s) (hreleased : s.released = none)
    (hasked : ∀ link, s.conn = some link → link.AskedBy i s.method) (n : ℕ) (isDone : Bool)
    (now : Time) : CallOk i (s.onWritten n isDone now) := by
  unfold Call.onWritten
  dsimp only
  split
  · obtain ⟨b, a, p, heq⟩ := progress_eq { s with upDone := s.upDone + n } .upload (s.upDone + n)
      (some s.bodySize) false now
    rw [heq]
    have hrun : Running onComplete { s with
        upDone := s.upDone + n, reportedBytes := b, reportedAt := a, progressed := p } := h
    exact hrun.callOk_writeBody hreleased hasked isDone now
  · have hrun : Running onComplete { s with upDone := s.upDone + n } := h
    exact hrun.callOk_writeBody hreleased hasked isDone now

theorem Running.callOk_onConnect (h : Running onComplete s) (hreleased : s.released = none)
    (hfresh : ∀ link, s.conn = some link → link.Fresh) (sni : Except ErrorCode Unit) :
    CallOk i (s.onConnect sni) := by
  unfold Call.onConnect
  split
  · exact h.callOk_await hreleased hfresh
  · split
    · exact h.callOk_error hreleased _
    · exact h.callOk_await hreleased hfresh

theorem Running.callOk_onResolve (h : Running onComplete s) (hreleased : s.released = none)
    {link : Link} (hfresh : link.Fresh) : CallOk i (s.onResolve link) := by
  unfold Call.onResolve
  split
  · exact h.callOk_error hreleased _
  · have hrun : Running onComplete { s with conn := some link } := h
    refine hrun.callOk_await hreleased fun link' hlink ↦ ?_
    exact Option.some.inj hlink ▸ hfresh

/-- A connection from the pool has nothing left on it. -/
theorem Running.callOk_begin (h : Running onComplete s) (hreleased : s.released = none)
    (target : Except ErrorCode Target) {idle : Option Link}
    (hfresh : ∀ link, idle = some link → link.Fresh) : CallOk i (s.begin target idle) := by
  unfold Call.begin
  split
  · exact h.callOk_error hreleased _
  · next target =>
    unfold Call.connect
    split
    · next link =>
      have hrun : Running onComplete { s with target, conn := some link, reused := true } := h
      refine hrun.callOk_await hreleased fun link' hlink ↦ ?_
      exact Option.some.inj hlink ▸ hfresh link rfl
    · have hrun : Running onComplete { s with target } := h
      exact hrun.callOk_await hreleased fun link _ ↦ trivial

/-- What an event may bring to call `i`: a fresh connection; the call's request arriving on one; and
a message of the call's own final response. -/
def Fits (i : ℕ) (s : ClientCall) : Event Link Response → Prop
  | .begin _ idle => ∀ link, idle = some link → link.Fresh
  | .resolved result => ∀ link, result = .ok link → link.Fresh
  | .connected _ | .handshaken _ => ∀ link, s.conn = some link → link.Fresh
  | .headerWritten result _ => ∀ isDone, result = .ok isDone →
    ∀ link, s.conn = some link → link.AskedBy i s.method
  | .bodyWritten .. => ∀ link, s.conn = some link → link.AskedBy i s.method
  | .headerRead result _ => ∀ message, result = .ok message →
    message.response.call = i ∧ message.response.interim = false ∧
      (message.isDone = true → ∀ link, s.conn = some link → link.connection.Clean) ∧
      (message.isDone = false → ∀ link, s.conn = some link → link.Answering i message)
  | .bodyRead result _ => ∀ message, result = .ok message →
    message.response.call = i ∧ message.response.interim = false ∧
      (message.isDone = true → ∀ link, s.conn = some link → link.connection.Clean) ∧
      (message.isDone = false → ∀ link, s.conn = some link → link.Answering i message)
  | .refuse => True
  | .abort _ => CallOk i s

/-- One case for each event, by what its handler ends with. -/
theorem Settled.callOk_step (h : Settled onComplete s) (hreleased : s.released = none)
    {e : Event Link Response} (hfits : Fits i s e) (he : s.step e = some t) : CallOk i t := by
  cases e with
  | abort why =>
    obtain rfl := Option.some.inj he
    show CallOk i (s.abort why)
    unfold Call.abort
    split
    · exact hfits
    · exact ⟨hfits.paired, hfits.released, hfits.during⟩
  | begin target idle =>
    obtain ⟨hmem, rfl⟩ := handle_of_step rfl he
    exact (h.complete hmem).2.callOk_begin hreleased target hfits
  | refuse =>
    obtain ⟨hmem, rfl⟩ := handle_of_step rfl he
    exact (h.complete hmem).2.callOk_error hreleased _
  | resolved result =>
    obtain ⟨hmem, rfl⟩ := handle_of_step rfl he
    have hrun := (h.complete hmem).1 rfl
    rcases result with ec | link
    · exact hrun.callOk_fail hreleased ec false
    · exact hrun.callOk_onResolve hreleased (hfits link rfl)
  | connected result =>
    obtain ⟨hmem, rfl⟩ := handle_of_step rfl he
    have hrun := (h.complete hmem).1 rfl
    rcases result with ec | sni
    · exact hrun.callOk_fail hreleased ec false
    · exact hrun.callOk_onConnect hreleased hfits sni
  | handshaken result =>
    obtain ⟨hmem, rfl⟩ := handle_of_step rfl he
    have hrun := (h.complete hmem).1 rfl
    rcases result with ec | _
    · exact hrun.callOk_fail hreleased ec false
    · exact hrun.callOk_await hreleased hfits
  | headerWritten result now =>
    obtain ⟨hmem, rfl⟩ := handle_of_step rfl he
    have hrun := (h.complete hmem).1 rfl
    rcases result with ec | isDone
    · exact hrun.callOk_fail hreleased ec true
    · exact hrun.callOk_writeBody hreleased (hfits isDone rfl) isDone now
  | bodyWritten result now =>
    obtain ⟨hmem, rfl⟩ := handle_of_step rfl he
    have hrun := (h.complete hmem).1 rfl
    rcases result with ec | ⟨n, isDone⟩
    · exact hrun.callOk_fail hreleased ec true
    · exact hrun.callOk_onWritten hreleased hfits n isDone now
  | headerRead result now =>
    obtain ⟨hmem, rfl⟩ := handle_of_step rfl he
    have hrun := (h.complete hmem).1 rfl
    rcases result with ⟨ec, parser⟩ | message
    · have hparser : Running onComplete { s.complete .readHeader with parser := some parser } :=
        hrun
      exact hparser.callOk_fail hreleased ec false
    · obtain ⟨hcall, hfinal, hdone, hmore⟩ := hfits message rfl
      have hparsed (downTotal : Option ℕ) : Running onComplete { s.complete .readHeader with
          parser := some (.message message), downTotal } := hrun
      exact (hparsed _).callOk_readBody hreleased rfl hcall hfinal hdone hmore now
  | bodyRead result now =>
    obtain ⟨hmem, rfl⟩ := handle_of_step rfl he
    have hrun := (h.complete hmem).1 rfl
    rcases result with ec | message
    · exact hrun.callOk_fail hreleased ec false
    · obtain ⟨hcall, hfinal, hdone, hmore⟩ := hfits message rfl
      exact hrun.callOk_onBody hreleased hcall hfinal hdone hmore now

end Call

/-! ### The client -/

/-- The state of the client between two steps. -/
structure Client.Inv (s : Client) : Prop where
  settled : ∀ (i : ℕ) (call : ClientCall), s.calls[i]? = some call →
    ∃ onComplete, call.Settled onComplete
  calls : ∀ (i : ℕ) (call : ClientCall), s.calls[i]? = some call → CallOk i call
  released : ∀ (i : ℕ) (call : ClientCall), s.calls[i]? = some call → call.released = none
  idle : ∀ key, ∀ idle ∈ s.idle key, idle.connection.Clean

namespace Client

variable {s t : Client} {call : ClientCall}

/-- Replace one call. -/
theorem Inv.set (h : Inv s) {call' : ClientCall} (hsettled : call'.Settled onComplete)
    (hok : CallOk i call') (hreleased : call'.released = none) :
    Inv { s with calls := s.calls.set i call' } := by
  have hget : ∀ (j : ℕ) (c : ClientCall), (s.calls.set i call')[j]? = some c →
      (j = i ∧ c = call') ∨ s.calls[j]? = some c := fun j c hc ↦ by
    rw [List.getElem?_set] at hc
    split at hc
    · next hij =>
      split at hc
      · exact Or.inl ⟨hij.symm, (Option.some.inj hc).symm⟩
      · exact absurd hc.symm (Option.some_ne_none _)
    · exact Or.inr hc
  refine ⟨fun j c hc ↦ ?_, fun j c hc ↦ ?_, fun j c hc ↦ ?_, h.idle⟩
  · rcases hget j c hc with ⟨rfl, rfl⟩ | hc
    · exact ⟨onComplete, hsettled⟩
    · exact h.settled j c hc
  · rcases hget j c hc with ⟨rfl, rfl⟩ | hc
    · exact hok
    · exact h.calls j c hc
  · rcases hget j c hc with ⟨rfl, rfl⟩ | hc
    · exact hreleased
    · exact h.released j c hc

/-- Replace the idle connections of one key. -/
theorem Inv.update (h : Inv s) (key : Text) {list : List Idle}
    (hlist : ∀ idle ∈ list, idle.connection.Clean) :
    Inv { s with idle := Function.update s.idle key list } := by
  refine ⟨h.settled, h.calls, h.released, fun key' idle hidle ↦ ?_⟩
  by_cases hkey : key' = key
  · subst hkey
    exact hlist idle (by simpa using hidle)
  · exact h.idle key' idle (by simpa [hkey] using hidle)

/-- A clean connection may be given to the pool. -/
theorem Inv.putIdle (h : Inv s) {connection : Connection} (hclean : connection.Clean)
    (now : Time) : Inv (s.putIdle options connection now) := by
  unfold Client.putIdle
  split
  · exact h
  · refine h.update _ fun idle hidle ↦ ?_
    rcases List.mem_cons.1 hidle with rfl | hidle
    · exact hclean
    · exact h.idle _ idle hidle

/-- What takeIdle() leaves, and what it finds, was in the store. -/
theorem takeIdle_subset (options : Options) (now : Time) (list : List Idle) :
    (∀ c, (takeIdle options now list).1 = some c → ∃ idle ∈ list, idle.connection = c) ∧
      (takeIdle options now list).2 ⊆ list := by
  induction list with
  | nil => exact ⟨fun c hc ↦ absurd hc.symm (Option.some_ne_none c), List.Subset.refl _⟩
  | cons idle rest ih =>
    rw [takeIdle]
    split
    · exact ⟨fun c hc ↦ ⟨idle, List.mem_cons_self, Option.some.inj hc⟩, List.subset_cons_self _ _⟩
    · refine ⟨fun c hc ↦ ?_, List.subset_cons_of_subset _ ih.2⟩
      obtain ⟨idle', hmem, heq⟩ := ih.1 c hc
      exact ⟨idle', List.mem_cons_of_mem _ hmem, heq⟩

/-- An event that fits its call, where the call waits for it. -/
theorem Inv.advance (h : Inv s) {e : Event Link Response} {now : Time}
    (hadvance : s.advance options i call e now = some t) (hsettled : call.Settled onComplete)
    (hreleased : call.released = none)
    (hfits : (∀ op, e.op = some op → op ∈ call.pending) → Call.Fits i call e) : Inv t := by
  obtain ⟨call', hstep, rfl⟩ := Option.map_eq_some_iff.1 hadvance
  have hok : CallOk i call' := hsettled.callOk_step hreleased
    (hfits fun op hop ↦ (Call.handle_of_step hop hstep).1) hstep
  have hsettled' : Call.Settled onComplete { call' with released := none } :=
    (show call'.Settled onComplete from hsettled.step hstep)
  have hset : Inv { s with calls := s.calls.set i { call' with released := none } } :=
    h.set hsettled'
      ⟨hok.paired, fun link hlink ↦ absurd hlink.symm (Option.some_ne_none _), hok.during⟩ rfl
  dsimp only
  split
  · next link hlink => exact hset.putIdle (hok.released link hlink) now
  · exact hset

/-- While a call waits for `op`, its connection fits that. -/
theorem Inv.during (h : Inv s) (hcall : s.calls[i]? = some call) {op : Op}
    (hop : op ∈ call.pending) : ∀ link, call.conn = some link →
      link.During i call.method call.parser op :=
  fun link hlink ↦ (h.calls i call hcall).during link hlink op hop

/-- Whatever a call's step completes with, and in whatever order, the client stays as it should
be. -/
theorem Inv.complete (h : Inv s) (hcall : s.calls[i]? = some call) {now : Time}
    {completion : Completion} (ht : s.complete options i call now completion = some t) : Inv t := by
  obtain ⟨onComplete, hsettled⟩ := h.settled i call hcall
  have hreleased := h.released i call hcall
  cases completion with
  | abort why =>
    exact h.advance ht hsettled hreleased fun _ ↦ h.calls i call hcall
  | refuse => exact h.advance ht hsettled hreleased fun _ ↦ trivial
  | begin target =>
    rcases target with ec | target
    · exact h.advance ht hsettled hreleased
        fun _ link hlink ↦ absurd hlink.symm (Option.some_ne_none _)
    · obtain ⟨hfound, hrest⟩ := takeIdle_subset options now (s.idle target.key)
      have htaken := h.update target.key fun idle hidle ↦ h.idle _ idle (hrest hidle)
      refine htaken.advance ht hsettled hreleased fun _ link hlink ↦ ?_
      obtain ⟨connection, hc, rfl⟩ := Option.map_eq_some_iff.1 hlink
      obtain ⟨idle, hidle, rfl⟩ := hfound connection hc
      exact ⟨h.idle _ idle hidle, rfl⟩
  | resolved result =>
    rcases result with ec | _
    · refine h.advance ht hsettled hreleased fun _ link hlink ↦ ?_
      cases hlink
    · refine h.advance ht hsettled hreleased fun _ link hlink ↦ ?_
      cases hlink
      exact ⟨⟨rfl, rfl⟩, rfl⟩
  | connected result =>
    exact h.advance ht hsettled hreleased fun hmem ↦ h.during hcall (hmem _ rfl)
  | handshaken result =>
    exact h.advance ht hsettled hreleased fun hmem ↦ h.during hcall (hmem _ rfl)
  | bodyWritten result =>
    exact h.advance ht hsettled hreleased fun hmem ↦ h.during hcall (hmem _ rfl)
  | headerWritten result =>
    rcases result with ec | isDone
    · refine h.advance ht hsettled hreleased fun _ isDone hdone ↦ ?_
      cases hdone
    · have hsettled' : Call.Settled onComplete
          { call with conn := call.conn.map fun link ↦ link.ask ⟨i, call.method⟩ } := hsettled
      refine h.advance ht hsettled' hreleased fun hmem _ _ link hlink ↦ ?_
      obtain ⟨link', hlink', rfl⟩ := Option.map_eq_some_iff.1 hlink
      exact Link.Fresh.ask (h.during hcall (hmem _ rfl) link' hlink') call.method
  | headerRead result =>
    rcases result with failure | k
    · refine h.advance ht hsettled hreleased fun _ message hmessage ↦ ?_
      cases hmessage
    rw [Client.complete] at ht
    split at ht
    · exact absurd ht.symm (Option.some_ne_none _)
    next link hconn =>
    obtain ⟨⟨message, link'⟩, hread, ht⟩ := Option.bind_eq_some_iff.1 ht
    have hsettled' : Call.Settled onComplete { call with conn := some link' } := hsettled
    refine h.advance ht hsettled' hreleased fun hmem message' hmessage ↦ ?_
    cases hmessage
    have hasked : link.AskedBy i call.method := h.during hcall (hmem _ rfl) link hconn
    obtain ⟨hown, hfinal, hdone, hmore⟩ := hasked.readHeader hread
    exact ⟨hown, hfinal, fun hd _ hlink ↦ Option.some.inj hlink ▸ hdone hd,
      fun hd _ hlink ↦ Option.some.inj hlink ▸ hmore hd⟩
  | bodyRead result =>
    rcases result with ec | ⟨k, j, eof⟩
    · refine h.advance ht hsettled hreleased fun _ message hmessage ↦ ?_
      cases hmessage
    rw [Client.complete] at ht
    split at ht
    · next link message hconn hparser =>
      obtain ⟨⟨message', link'⟩, hread, ht⟩ := Option.bind_eq_some_iff.1 ht
      have hsettled' : Call.Settled onComplete { call with conn := some link' } := hsettled
      refine h.advance ht hsettled' hreleased fun hmem _ hmessage ↦ ?_
      cases hmessage
      obtain ⟨message'', hparser', hanswering⟩ := h.during hcall (hmem _ rfl) link hconn
      obtain rfl := Parser.message.inj (Option.some.inj (hparser.symm.trans hparser'))
      obtain ⟨hsame, hdone, hmore⟩ := hanswering.readBody hread
      exact ⟨hsame ▸ hanswering.1, hsame ▸ hanswering.2.1,
        fun hd _ hlink ↦ Option.some.inj hlink ▸ hdone hd,
        fun hd _ hlink ↦ Option.some.inj hlink ▸ hmore hd⟩
    · exact absurd ht.symm (Option.some_ne_none _)

/-! ### Every run -/

theorem Inv.init : Inv {} where
  settled i call h := absurd h (by simp)
  calls i call h := absurd h (by simp)
  released i call h := absurd h (by simp)
  idle key idle h := absurd h List.not_mem_nil

/-- A step without an interim response keeps the client as it should be. -/
theorem Inv.step (h : Inv s) {a : Action} (ha : a.isInterim = false)
    (ht : s.step options a = some t) : Inv t := by
  cases a with
  | send method bodySize onProgress onComplete =>
    obtain rfl := Option.some.inj ht
    have hget : ∀ {i : ℕ} {new c : ClientCall}, (s.calls ++ [new])[i]? = some c →
        s.calls[i]? = some c ∨ c = new := fun {i new c} hc ↦ by
      rw [List.getElem?_append] at hc
      split at hc
      · exact Or.inl hc
      · exact Or.inr (List.mem_singleton.1 (List.mem_of_getElem? hc))
    refine ⟨fun i c hc ↦ ?_, fun i c hc ↦ ?_, fun i c hc ↦ ?_, h.idle⟩
    · rcases hget hc with hc | rfl
      · exact h.settled i c hc
      · exact ⟨onComplete, Or.inl ⟨rfl, ⟨_, rfl, by cases s.closed <;> rfl⟩, rfl, rfl, rfl⟩⟩
    · rcases hget hc with hc | rfl
      · exact h.calls i c hc
      · exact ⟨fun r hr ↦ absurd hr List.not_mem_nil,
          fun link hlink ↦ absurd hlink.symm (Option.some_ne_none _),
          fun link hlink ↦ absurd hlink.symm (Option.some_ne_none _)⟩
    · rcases hget hc with hc | rfl
      · exact h.released i c hc
      · rfl
  | complete i now completion =>
    obtain ⟨call, hcall, ht⟩ := Option.bind_eq_some_iff.1 ht
    exact h.complete hcall ht
  | destroy =>
    obtain rfl := Option.some.inj ht
    exact ⟨h.settled, h.calls, h.released, fun key idle hidle ↦ absurd hidle List.not_mem_nil⟩
  | serveCall i reply =>
    obtain ⟨call, hcall, ht⟩ := Option.bind_eq_some_iff.1 ht
    obtain ⟨link, hlink, ht⟩ := Option.bind_eq_some_iff.1 ht
    obtain ⟨connection, hserve, rfl⟩ := Option.map_eq_some_iff.1 ht
    obtain ⟨onComplete, hsettled⟩ := h.settled i call hcall
    have hok := h.calls i call hcall
    have hreply : ∀ r, reply ≠ .interim r := fun r hr ↦ by
      subst hr
      exact absurd ha (Ne.symm Bool.false_ne_true)
    have hsettled' : Call.Settled onComplete
        { call with conn := some { link with connection } } := hsettled
    refine h.set hsettled' ⟨hok.paired, hok.released, fun link' hlink' op hop ↦ ?_⟩
      (h.released i call hcall)
    obtain rfl := Option.some.inj hlink'
    exact Link.During.serve (hok.during link hlink op hop) hreply hserve
  | serveIdle key j reply =>
    obtain ⟨idle, hidle, ht⟩ := Option.bind_eq_some_iff.1 ht
    obtain ⟨connection, hserve, rfl⟩ := Option.map_eq_some_iff.1 ht
    refine h.update key fun idle' hidle' ↦ ?_
    rcases List.mem_or_eq_of_mem_set hidle' with hmem | rfl
    · exact h.idle key idle' hmem
    · exact (h.idle key idle (List.mem_of_getElem? hidle)).serve hserve

end Client

/-- **Pairing**, in every run in which no server sends an interim response. -/
theorem responses_paired {s : Client}
    (h : (clientMachine options).ReachableVia (fun _ a ↦ a.isInterim = false) s) {call : ClientCall}
    (hcall : s.calls[i]? = some call) {r : Response} (hr : .response r ∈ call.promise) :
    r.call = i ∧ r.interim = false := by
  have hinv : s.Inv := by
    refine Machine.ReachableVia.invariant (fun s hs ↦ ?_) (fun s a t hs hc ha ↦ ?_) h
    · obtain rfl := hs
      exact Client.Inv.init
    · exact hs.step hc ha
  exact (hinv.calls i call hcall).paired r hr

/-- A first GET on a new connection, up to where its answer is to come. -/
def asking : List Action :=
  [.send .get 0 false true, .complete 0 0 (.begin (.ok ⟨[], false⟩)),
    .complete 0 0 (.resolved (.ok ())), .complete 0 0 (.connected (.ok (.ok ()))),
    .complete 0 0 (.headerWritten (.ok true))]

/-- A second GET, on the connection the first one gave back. -/
def askingAgain : List Action :=
  [.send .get 0 false true, .complete 1 0 (.begin (.ok ⟨[], false⟩)),
    .complete 1 0 (.headerWritten (.ok true))]

/-- Both requests are answered. -/
def answering : List Action :=
  asking ++ [.serveCall 0 (.final ⟨0, 200, true, some 1⟩ 1), .complete 0 0 (.headerRead (.ok 1)),
    .complete 0 0 (.bodyRead (.ok (1, 1, false)))] ++ askingAgain ++
  [.serveCall 1 (.final ⟨1, 204, true, none⟩ 0), .complete 1 0 (.headerRead (.ok 1))]

/-- The first one is answered with early hints and a final response. -/
def hinting : List Action :=
  asking ++ [.serveCall 0 (.interim ⟨0, 103, true, none⟩),
    .serveCall 0 (.final ⟨0, 200, true, some 0⟩ 0), .complete 0 0 (.headerRead (.ok 1))] ++
  askingAgain ++ [.complete 1 0 (.headerRead (.ok 1))]

theorem responses_paired_answering :
    ∃ s call, (clientMachine {}).run {} answering = some s ∧ s.calls[1]? = some call ∧
      .response ⟨1, 204, true, none⟩ ∈ call.promise ∧
      (⟨1, 204, true, none⟩ : Response).call = 1 :=
  ⟨_, _, rfl, rfl, by decide, (responses_paired
    ((Machine.ReachableVia.init (M := clientMachine {}) rfl).run answering (by decide) rfl)
    rfl (by decide)).1⟩

/-- The first call gets the early hints, the second one the response to the first. -/
theorem hinting_mispairs :
    ¬∀ (options : Options) (s : Client), (clientMachine options).Reachable s →
      ∀ (i : ℕ) (call : ClientCall), s.calls[i]? = some call →
        ∀ r, .response r ∈ call.promise → r.call = i ∧ r.interim = false := by
  intro h
  have hrun := h {} _ (Machine.run_reachable (M := clientMachine {}) hinting rfl rfl)
  have hsecond := hrun 1 _ rfl ⟨0, 200, true, some 0⟩ (by decide)
  exact absurd hsecond.1 (by decide)

end CppGate.HttpClient
