import CppGate.HttpClient.ReportInvariant

/-!
# What a call reports of its progress

On one attempt the reports are those of one upload and then of one download, each of them growing up
to its complete report. A second attempt starts over, `upDone` as well as `reportedBytes`.

So the reports of a call that succeeds are in order exactly if the first attempt did not report its
upload complete and the second reports no less than the first had (`reports_proper_iff`).
-/

namespace CppGate.HttpClient

open Http

universe u v

variable {κ : Type u} {ρ : Type v}

section Steps

variable {s s' : Sending κ ρ} {n : Notes} {e : Event κ ρ} {c : Call κ ρ} {onComplete : Bool}

/-! ### Reports that are added -/

/-- Reports of the upload that say how much is done. -/
theorem sound_uploads {body : Text} (hbefore : Before body n) (hfirst : n.first <+: n.reports)
    {added : List Report} {done : ℕ} (hne : added ≠ [])
    (hadded : ∀ r ∈ added, r.progress.direction = .upload ∧ r.progress.transferred = done)
    (hclean : Clean s n e ↔ n.first = [] ∨ n.earlier ≤ done) :
    Sound { n with reports := n.reports ++ added } ↔ Sound n ∧ Clean s n e := by
  rw [sound_append hfirst]
  refine and_congr_right fun hsound ↦ ?_
  rw [hclean, ← hbefore.reaches hsound]
  obtain ⟨r₀, hr₀⟩ := List.exists_mem_of_ne_nil added hne
  constructor
  · intro hall r hr
    exact (hall r hr r₀ hr₀ (hadded r₀ hr₀).1).trans_eq (hadded r₀ hr₀).2
  · intro hall r hr r' hr' _
    exact (hall r hr).trans_eq (hadded r' hr').2.symm

/-- A call that succeeds. -/
theorem Runs.succeeds (h : Reports s n) (hrunning : s.call.finished = false) (hc : Runs s c)
    {t : Call κ ρ} (hcall : s'.call = t) (hbody : s'.body = s.body) (hfinished : t.finished = true)
    (hretried : t.retried = c.retried) {events : List Progress}
    (hprogressed : t.progressed = c.progressed ++ events) {second downs : List Report}
    (hreports : n.reports = n.first ++ second ++ downs) (huploaded : Uploaded s.body second)
    (hadded : Completed .download (downs ++ reportsOf e.completes events)) (hclean : Clean s n e) :
    Next s n e s' := by
  subst hcall
  have hprogressed' := hprogressed.trans (congrArg (· ++ events) hc.progressed)
  obtain ⟨-, -, hbefore, -⟩ := h.running hrunning
  have hfirst : n.first <+: n.reports := ⟨second ++ downs, by rw [hreports, List.append_assoc]⟩
  rw [Next, after_of_progressed (hretried.trans hc.retried) hprogressed']
  refine ⟨⟨?_, fun hnot ↦ ?_, fun response _ ↦ ⟨hbody ▸ hbefore, second, _, ?_, hbody ▸ huploaded,
    hadded⟩⟩, ?_⟩
  · rw [hprogressed', h.progressed, List.map_append, map_progress_reportsOf]
  · exact absurd (hnot.symm.trans hfinished) Bool.false_ne_true
  · show n.reports ++ _ = _
    rw [hreports, List.append_assoc]
  · rw [sound_download hfirst fun r hr ↦ hadded.direction_eq r (List.mem_append_right _ hr)]
    exact (and_iff_left hclean).symm

/-! ### Writing -/

/-- The request is complete without having had a body. -/
theorem Runs.reads_empty (h : Reports s n) (hrunning : s.call.finished = false) (hc : Runs s c)
    {t : Call κ ρ} (ht : t = { c with upDone := t.upDone }) (now : Time)
    (hcall : s'.call = t.writeBody true now) (hbody : s'.body = s.body) (hempty : s.body = [])
    (hreports : n.reports = n.first) (htotal : s.call.downTotal = none) (hclean : Clean s n e) :
    Next s n e s' := by
  have hsize : t.bodySize = 0 := by
    rw [ht]
    exact hc.bodySize.trans (by rw [hempty]; rfl)
  rw [Call.writeBody_done_empty hsize, ht] at hcall
  refine hc.quiet h hrunning hcall hbody .readHeader rfl rfl rfl rfl rfl rfl rfl ?_ hclean
  rw [Phase, hcall]
  exact ⟨[], hreports.trans (List.append_nil _).symm, rfl, hc.downTotal.trans htotal,
    Or.inl ⟨hbody.trans hempty, rfl⟩⟩

/-- The header is written: an upload begins, or the response is read. -/
theorem next_headerWritten (h : Reports s n) (hs : s.call.Settled onComplete)
    (hmem : .writeHeader ∈ s.call.pending) {k : ℕ} (result : Except ErrorCode Bool) (now : Time)
    (hallows : s.allows k (.headerWritten result now) = true) :
    Next s n (.headerWritten result now) ((s.hand k).goOn (.headerWritten result now)
      ((s.call.complete .writeHeader).handle (.headerWritten result now))) := by
  obtain ⟨hrunning, hc, hfresh, hleft⟩ := h.runs hs hmem
  obtain ⟨hreports, hdone, hbytes, htotal⟩ := hfresh
  rcases result with ec | isDone
  · exact hc.fails_unreported h hrunning ⟨hreports, hdone, hbytes, htotal⟩ ec true (goOn_call ..)
      (goOn_body ..) ⟨id, id⟩
  obtain ⟨hk, hlast⟩ : k = s.header.length ∧ (isDone = true → s.body = []) := by
    simpa [Sending.allows, Bool.eq_false_or_eq_true, or_iff_not_imp_left] using hallows
  cases isDone with
  | true =>
    exact hc.reads_empty h hrunning rfl now (goOn_call ..) (goOn_body ..) (hlast rfl) hreports
      htotal ⟨id, id⟩
  | false =>
    have hwrites :
        Op.writeHeader ∉ ((s.call.complete .writeHeader).writeBody false now).pending := by
      show _ ∉ (s.call.complete .writeHeader).pending ++ [.writeBody]
      rw [hc.pending]
      decide
    refine hc.quiet h hrunning (goOn_call ..) (goOn_body ..) .writeBody rfl rfl rfl rfl rfl rfl
      rfl ?_ ⟨id, id⟩
    rw [Phase, Call.handle, Sending.goOn_of_not_mem rfl hwrites]
    refine ⟨[], hreports.trans (List.append_nil _).symm, ?_, ?_, htotal, ?_⟩
    · show s.call.upDone + (s.left.drop k).length = s.body.length
      rw [hdone, hleft, hk, Sending.octets, List.drop_left, Nat.zero_add]
    · exact hbytes.trans_le (Nat.zero_le _)
    · show Underway s.body s.call.reportedBytes []
      rw [hbytes]
      exact underway_nil _

/-- A report on the way is due, or nothing is: when the second attempt takes something back. -/
theorem clean_bodyWritten (h : Reports s n) (hrunning : s.call.finished = false) {m : ℕ}
    {isDone : Bool} {now : Time} (hbody : s.body ≠ [])
    (hdue : s.call.Due (s.call.upDone + m) false now) :
    Clean s n (.bodyWritten (.ok (m, isDone)) now) ↔
      n.first = [] ∨ n.earlier ≤ s.call.upDone + m := by
  obtain ⟨-, -, hbefore, hretried, -⟩ := h.running hrunning
  constructor
  · rintro ⟨-, hclean⟩
    by_contra hnot
    obtain ⟨hfirst, hless⟩ := not_or.1 hnot
    have hsecond : s.call.retried = true := by
      by_contra hfalse
      exact hfirst (hretried (Bool.eq_false_iff.2 hfalse))
    exact hclean ⟨hbody, hsecond, not_le.1 hless, hdue.resolve_left Bool.false_ne_true⟩
  · refine fun hreaches ↦ ⟨id, fun hless ↦ ?_⟩
    have hle : n.earlier ≤ s.call.upDone + m := by
      rcases hreaches with hfirst | hle
      · exact (hbefore.earlier_of_nil hfirst).trans_le (Nat.zero_le _)
      · exact hle
    exact absurd hless.2.2.1 (not_lt.2 hle)

/-- The next part of the body is written. -/
theorem Runs.writes_on (h : Reports s n) (hrunning : s.call.finished = false) (hc : Runs s c)
    {second : List Report} (hwriting : Writing s n second) {m : ℕ} (hle : m ≤ s.left.length)
    {t : Call κ ρ} {reportedBytes : ℕ} {reportedAt : Time} {events : List Progress}
    (ht : t = { c with
      upDone := c.upDone + m
      reportedBytes
      reportedAt
      progressed := c.progressed ++ events })
    (hcall : s'.call = t.await .writeBody) (hbody : s'.body = s.body)
    (hleft : s'.left = s.left.drop m) (hbytes : reportedBytes ≤ s.call.upDone + m)
    (hunderway : Underway s.body reportedBytes (second ++ reportsOf e.completes events))
    (hsound : Sound { n with reports := n.reports ++ reportsOf e.completes events } ↔
      Sound n ∧ Clean s n e) : Next s n e s' := by
  subst ht
  refine hc.awaits h hrunning hcall hbody .writeBody rfl rfl rfl rfl rfl rfl rfl ?_ hsound
  refine ⟨second ++ reportsOf e.completes events, ?_, ?_, ?_, ?_, ?_⟩
  · show n.reports ++ _ = n.first ++ (second ++ _)
    rw [hwriting.reports, List.append_assoc]
  · rw [hcall, hleft, hbody]
    show c.upDone + m + (s.left.drop m).length = s.body.length
    have hall := hwriting.left
    rw [hc.upDone, List.length_drop]
    omega
  · rw [hcall]
    show reportedBytes ≤ c.upDone + m
    rw [hc.upDone]
    exact hbytes
  · rw [hcall]
    exact hc.downTotal.trans hwriting.total
  · rw [hcall, hbody]
    exact hunderway

theorem Runs.bodySize_eq_zero (hc : Runs s c) : c.bodySize = 0 ↔ s.body = [] := by
  rw [hc.bodySize, List.length_eq_zero_iff]

/-- When a report of the upload is due in the handler. -/
theorem Runs.due (hc : Runs s c) {m : ℕ} {now : Time} :
    c.Due (c.upDone + m) false now ↔ s.call.Due (s.call.upDone + m) false now := by
  rw [Call.Due, Call.Due, hc.upDone, hc.reportedBytes, hc.reportedAt]

/-- A part of the body was written that is not the last one. -/
theorem Runs.written_on (h : Reports s n) (hrunning : s.call.finished = false) (hc : Runs s c)
    {second : List Report} (hwriting : Writing s n second) {m : ℕ} (hle : m ≤ s.left.length)
    (now : Time) :
    Next s n (.bodyWritten (.ok (m, false)) now)
      ((s.hand m).goOn (.bodyWritten (.ok (m, false)) now) (c.onWritten m false now)) := by
  have hwrites (t : Call κ ρ) (ht : t.pending = c.pending) :
      Op.writeHeader ∉ (t.writeBody false now).pending := by
    show _ ∉ t.pending ++ [.writeBody]
    rw [ht, hc.pending]
    decide
  have hleft (t : Call κ ρ) (ht : t.pending = c.pending) :
      ((s.hand m).goOn (.bodyWritten (.ok (m, false)) now) (t.writeBody false now)).left =
        s.left.drop m := by
    rw [Sending.goOn_of_not_mem rfl (hwrites t ht)]
    rfl
  -- No report: the counter goes up and nothing else changes.
  have hquiet (hclean : Clean s n (.bodyWritten (.ok (m, false)) now)) :
      Next s n (.bodyWritten (.ok (m, false)) now) ((s.hand m).goOn
        (.bodyWritten (.ok (m, false)) now)
        (Call.writeBody { c with upDone := c.upDone + m } false now)) := by
    have hunderway : Underway s.body c.reportedBytes (second ++ reportsOf false []) := by
      rw [reportsOf_nil, List.append_nil, hc.reportedBytes]
      exact hwriting.underway
    have ht : ({ c with upDone := c.upDone + m } : Call κ ρ) = { c with
        upDone := c.upDone + m
        reportedBytes := c.reportedBytes
        reportedAt := c.reportedAt
        progressed := c.progressed ++ [] } := by rw [List.append_nil]
    refine hc.writes_on h hrunning hwriting hle ht (goOn_call ..) (goOn_body ..) (hleft _ rfl) ?_
      hunderway ?_
    · rw [hc.reportedBytes]
      exact hwriting.bytes.trans (Nat.le_add_right _ _)
    · rw [reportsOf_nil, List.append_nil]
      exact (and_iff_left hclean).symm
  by_cases hbody : s.body = []
  · rw [Call.onWritten_of_empty (hc.bodySize_eq_zero.2 hbody)]
    exact hquiet ⟨id, fun hless ↦ hless.1 hbody⟩
  have hsize : c.bodySize ≠ 0 := mt hc.bodySize_eq_zero.1 hbody
  by_cases hdue : c.Due (c.upDone + m) false now
  · have hprefix : n.first <+: n.reports := ⟨second, hwriting.reports.symm⟩
    obtain ⟨-, -, hbefore, -⟩ := h.running hrunning
    have hdone : s.call.upDone + m ≤ s.body.length := by
      have hall := hwriting.left
      omega
    have hunderway : Underway s.body (c.upDone + m)
        (second ++ [⟨⟨.upload, c.upDone + m, some c.bodySize⟩, false⟩]) := by
      rw [hc.upDone, hc.bodySize]
      have hle : s.call.reportedBytes ≤ s.call.upDone + m :=
        hwriting.bytes.trans (Nat.le_add_right _ _)
      exact ⟨hwriting.underway.1.snoc hle, hdone, Or.inr ⟨hbody, _,
        List.mem_append_right _ (List.mem_singleton_self _), rfl⟩⟩
    rw [Call.onWritten_of_due hc.onProgress hsize hdue]
    refine hc.writes_on h hrunning hwriting hle rfl (goOn_call ..) (goOn_body ..) (hleft _ rfl)
      (hc.upDone ▸ le_rfl) hunderway (sound_uploads hbefore hprefix (List.cons_ne_nil _ _) ?_
        (clean_bodyWritten h hrunning hbody (hc.due.1 hdue)))
    exact List.forall_mem_singleton.2 ⟨rfl, congrArg (· + m) hc.upDone⟩
  · rw [Call.onWritten_of_not_due hsize hdue]
    exact hquiet ⟨id, fun hless ↦ hdue (hc.due.2 (Or.inr hless.2.2.2))⟩

/-- The last part of the body was written: the report that the upload is complete reaches whatever
the first attempt had reported. -/
theorem Runs.written_whole (h : Reports s n) (hrunning : s.call.finished = false) (hc : Runs s c)
    {second : List Report} (hwriting : Writing s n second) (hbody : s.body ≠ []) {m : ℕ}
    (hm : s.call.upDone + m = s.body.length) {now : Time} {t : Call κ ρ} {reportedBytes : ℕ}
    {reportedAt : Time} {early : List Progress}
    (ht : t = { c with
      upDone := c.upDone + m
      reportedBytes
      reportedAt
      progressed := c.progressed ++ early })
    (hearly : early = [] ∨ early = [⟨.upload, s.body.length, some s.body.length⟩])
    (hcall : s'.call = t.writeBody true now) (hbody' : s'.body = s.body)
    (he : e.completes = true) (hclean : Clean s n e) : Next s n e s' := by
  have hdone : t.upDone = s.body.length := by
    rw [ht]
    show c.upDone + m = s.body.length
    rw [hc.upDone, hm]
  have hset : t.onProgress = true := by
    rw [ht]
    exact hc.onProgress
  have hsize : t.bodySize = s.body.length := by
    rw [ht]
    exact hc.bodySize
  have hne : t.bodySize ≠ 0 := by
    rw [hsize]
    exact fun hlength ↦ hbody (List.length_eq_zero_iff.1 hlength)
  rw [Call.writeBody_done hset hne, hdone, hsize] at hcall
  obtain ⟨-, -, hbefore, -⟩ := h.running hrunning
  have hprefix : n.first <+: n.reports := ⟨second, hwriting.reports.symm⟩
  have hway : s.call.reportedBytes ≤ s.body.length := hwriting.underway.2.1
  have hcompleted : Completed .upload (second ++ reportsOf e.completes
      (early ++ [⟨.upload, s.body.length, some s.body.length⟩])) := by
    rw [he]
    rcases hearly with rfl | rfl
    · exact hwriting.underway.1.completed hway (fun _ h ↦ (Option.some.inj h).le)
        fun _ h ↦ (Option.some.inj h).le
    · rw [List.singleton_append, reportsOf_pair, List.append_cons]
      exact (hwriting.underway.1.snoc hway).completed le_rfl (fun _ h ↦ (Option.some.inj h).le)
        fun _ h ↦ (Option.some.inj h).le
  have hadded : ∀ r ∈ reportsOf e.completes
      (early ++ [⟨.upload, s.body.length, some s.body.length⟩]),
      r.progress.direction = .upload ∧ r.progress.transferred = s.body.length := by
    rcases hearly with rfl | rfl <;> simp
  have hne' : reportsOf e.completes
      (early ++ [⟨.upload, s.body.length, some s.body.length⟩]) ≠ [] := by
    rcases hearly with rfl | rfl <;> simp
  subst ht
  refine hc.awaits h hrunning hcall hbody' .readHeader rfl rfl rfl rfl hc.bodySize.symm rfl
    (List.append_assoc ..) ?_ (sound_uploads hbefore hprefix hne' hadded
      (iff_of_true hclean (Or.inr hbefore.earlier_le)))
  refine ⟨_, ?_, ?_, ?_, Or.inr ⟨hbody' ▸ hbody, hcompleted⟩⟩
  · show n.reports ++ _ = n.first ++ (second ++ _)
    rw [hwriting.reports, List.append_assoc]
  · rw [hcall]
    rfl
  · rw [hcall]
    exact hc.downTotal.trans hwriting.total

/-- Some of the body is written, or the attempt fails and may be tried again. -/
theorem next_bodyWritten (h : Reports s n) (hs : s.call.Settled onComplete)
    (hmem : .writeBody ∈ s.call.pending) {k : ℕ} (result : Except ErrorCode (ℕ × Bool)) (now : Time)
    (hallows : s.allows k (.bodyWritten result now) = true) :
    Next s n (.bodyWritten result now) ((s.hand k).goOn (.bodyWritten result now)
      ((s.call.complete .writeBody).handle (.bodyWritten result now))) := by
  obtain ⟨hrunning, hc, second, hwriting⟩ := h.runs hs hmem
  obtain ⟨hreports, -, -, htotal, hunderway⟩ := id hwriting
  rcases result with ec | ⟨m, isDone⟩
  · refine hc.fails h hrunning ec true (goOn_call ..) (goOn_body ..) (fun _ ↦ ⟨id, id⟩)
      fun _ _ _ hfirst ↦ ⟨htotal, ?_, iff_of_true (fun r hr ↦ ?_) ⟨id, id⟩⟩
    · rw [hfirst, List.nil_append] at hreports
      rw [hreports]
      exact Or.inl hunderway
    · rw [hfirst, List.nil_append] at hreports
      exact (hunderway.1.each r (hreports ▸ hr)).2.2.2
  obtain ⟨⟨rfl, hle⟩, hlast⟩ : (k = m ∧ k ≤ s.left.length) ∧
      (isDone = true → k = s.left.length) := by
    simpa [Sending.allows, Bool.eq_false_or_eq_true, or_iff_not_imp_left] using hallows
  cases isDone with
  | false => exact hc.written_on h hrunning hwriting hle now
  | true =>
    have hall : s.call.upDone + k = s.body.length := by
      rw [hlast rfl]
      exact hwriting.left
    have hclean : Clean s n (.bodyWritten (.ok (k, true)) now) := by
      obtain ⟨-, -, hbefore, -⟩ := h.running hrunning
      refine ⟨id, fun hless ↦ absurd hless.2.2.1 (not_lt.2 ?_)⟩
      rw [hall]
      exact hbefore.earlier_le
    rw [Call.handle]
    by_cases hbody : s.body = []
    · rw [Call.onWritten_of_empty (hc.bodySize_eq_zero.2 hbody)]
      have hnone : second = [] := (hunderway.2.2.resolve_right fun hsome ↦ hsome.1 hbody).1
      rw [hnone, List.append_nil] at hreports
      exact hc.reads_empty h hrunning rfl now (goOn_call ..) (goOn_body ..) hbody hreports htotal
        hclean
    have hsize : (s.call.complete .writeBody).bodySize ≠ 0 := mt hc.bodySize_eq_zero.1 hbody
    have hlength : (s.call.complete .writeBody).upDone + k = s.body.length := hall
    by_cases hdue : (s.call.complete .writeBody).Due
        ((s.call.complete .writeBody).upDone + k) false now
    · rw [Call.onWritten_of_due hc.onProgress hsize hdue]
      refine hc.written_whole h hrunning hwriting hbody hall rfl (Or.inr ?_)
        (goOn_call ..) (goOn_body ..) rfl hclean
      rw [hlength, hc.bodySize]
    · rw [Call.onWritten_of_not_due hsize hdue]
      have ht : ({ s.call.complete .writeBody with
          upDone := (s.call.complete .writeBody).upDone + k } : Call κ ρ) =
          { s.call.complete .writeBody with
            upDone := (s.call.complete .writeBody).upDone + k
            reportedBytes := s.call.reportedBytes
            reportedAt := s.call.reportedAt
            progressed := (s.call.complete .writeBody).progressed ++ [] } := by
        rw [List.append_nil]
        rfl
      exact hc.written_whole h hrunning hwriting hbody hall ht (Or.inl rfl) (goOn_call ..)
        (goOn_body ..) rfl hclean

/-! ### Reading -/

/-- A part of the response was read: it goes on, or it is complete. -/
theorem Runs.reads (h : Reports s n) (hrunning : s.call.finished = false) (hc : Runs s c)
    {t : Call κ ρ} {message : Message ρ} {now : Time} {events : List Progress}
    {second downs : List Report} (hreports : n.reports = n.first ++ second ++ downs)
    (huploaded : Uploaded s.body second) (hcall : s'.call = t.readBody message now)
    (hbody : s'.body = s.body) (hpending : t.pending = c.pending) (hpromise : t.promise = c.promise)
    (hfinished : t.finished = c.finished) (hset : t.onProgress = c.onProgress)
    (hsize : t.bodySize = c.bodySize) (hretried : t.retried = c.retried)
    (hprogressed : t.progressed = c.progressed ++ events)
    (hparser : t.parser = some (.message message))
    (hknown : ∀ known, t.downTotal = some known → message.contentLength = some known ∧
      t.method ≠ .head ∧ message.bodySize ≤ known)
    (hcourse : Course .download t.downTotal message.bodySize
      (downs ++ events.map (⟨·, false⟩)))
    (he : e.completes = message.isDone) (hclean : Clean s n e) : Next s n e s' := by
  cases hdone : message.isDone with
  | true =>
    have hset' : t.onProgress = true := hset.trans hc.onProgress
    obtain ⟨hreported, hover, hsame⟩ :=
      Call.readBody_done hset' (hfinished.trans hc.finished) hdone now
    have hall : (t.readBody message now).progressed = c.progressed ++ (events ++
        [⟨.download, message.bodySize, some (t.downTotal.getD message.bodySize)⟩]) := by
      rw [hreported, hprogressed, List.append_assoc]
    refine hc.succeeds h hrunning hcall hbody hover (hsame.trans hretried) hall hreports huploaded
      ?_ hclean
    rw [he, hdone, reportsOf_concat, ← List.append_assoc]
    refine hcourse.completed le_rfl (fun known hk ↦ (hknown known hk).2.2) fun known hk ↦ ?_
    rw [← Option.some.inj hk]
    cases htotal : t.downTotal with
    | none => exact le_rfl
    | some total => exact (hknown total htotal).2.2
  | false =>
    have hadded : reportsOf e.completes events = events.map (⟨·, false⟩) := by
      rw [he, hdone, reportsOf_false]
    have hprefix : n.first <+: n.reports := ⟨second ++ downs, by rw [hreports, List.append_assoc]⟩
    rw [Call.readBody_goes_on hdone] at hcall
    refine hc.awaits h hrunning hcall hbody .readBody ?_ hpromise hfinished hset hsize
      hretried hprogressed ?_ ?_
    · rw [Call.await_pending, hpending]
    · rw [hadded]
      refine ⟨second, downs ++ events.map (⟨·, false⟩), message, ?_, hbody ▸ huploaded, ?_, ?_, ?_⟩
      · show n.reports ++ _ = _
        rw [hreports, List.append_assoc]
      · rw [hcall]
        exact hparser
      · rw [hcall]
        exact hknown
      · rw [hcall]
        exact hcourse
    · rw [hadded, sound_download hprefix fun r hr ↦ ?_]
      · exact (and_iff_left hclean).symm
      · exact hcourse.direction_eq r (List.mem_append_right _ hr)

/-- The header is read, with all of the body or a part of it. -/
theorem next_headerRead (h : Reports s n) (hs : s.call.Settled onComplete)
    (hmem : .readHeader ∈ s.call.pending) (result : Except (ErrorCode × Parser ρ) (Message ρ))
    (now : Time) (hparses : Parses s (.headerRead result now)) :
    Next s n (.headerRead result now) (s.goOn (.headerRead result now)
      ((s.call.complete .readHeader).handle (.headerRead result now))) := by
  obtain ⟨hrunning, hc, second, hreports, hbytes, htotal, huploaded⟩ := h.runs hs hmem
  rcases result with ⟨ec, parser⟩ | message
  · have hc' : Runs s { s.call.complete .readHeader with parser := some parser } :=
      ⟨hc.pending, hc.finished, hc.promise, hc.progressed, hc.onProgress, hc.bodySize, rfl, rfl,
        rfl, rfl, rfl, rfl⟩
    refine hc'.fails h hrunning ec false (goOn_call ..) (goOn_body ..)
      (fun hnot ↦ ⟨fun hwritten ↦ hnot hwritten.2, id⟩) fun haborted hec hretries hfirst ↦
        ⟨htotal, ?_, ?_⟩
    · rcases huploaded with ⟨-, rfl⟩ | ⟨hbody, hcompleted⟩
      · rw [hreports, hfirst, hbytes]
        exact Or.inl (underway_nil _)
      · rw [hreports, hfirst, hbytes]
        exact Or.inr ⟨hbody, rfl, hcompleted⟩
    · rw [hreports, hfirst, List.nil_append]
      rcases huploaded with ⟨hbody, rfl⟩ | ⟨hbody, hcompleted⟩
      · exact iff_of_true (fun _ hr ↦ absurd hr List.not_mem_nil)
          ⟨fun hwritten ↦ hwritten.1 hbody, id⟩
      · obtain ⟨r, hr, hcomplete⟩ := hcompleted.mem_complete
        exact iff_of_false (fun hall ↦ Bool.false_ne_true ((hall r hr).symm.trans hcomplete))
          fun hclean ↦ hclean.1 ⟨hbody, haborted, hec, hretries⟩
  · have hnone : (s.call.complete .readHeader).downTotal = none := htotal
    refine hc.reads h hrunning (hreports.trans (List.append_nil _).symm) huploaded
      (goOn_call ..) (goOn_body ..) rfl rfl rfl rfl rfl rfl (List.append_nil _).symm rfl
      (fun known hk ↦ ?_) .nil rfl ⟨id, id⟩
    dsimp only at hk
    rw [hnone] at hk
    split at hk
    · next hannounced =>
      rw [Bool.and_eq_true, bne_iff_ne] at hannounced
      exact ⟨hk, hannounced.2, hparses known hk hannounced.2⟩
    · exact absurd hk nofun

/-- More of the body is read. -/
theorem next_bodyRead (h : Reports s n) (hs : s.call.Settled onComplete)
    (hmem : .readBody ∈ s.call.pending) (result : Except ErrorCode (Message ρ)) (now : Time)
    (hparses : Parses s (.bodyRead result now)) :
    Next s n (.bodyRead result now) (s.goOn (.bodyRead result now)
      ((s.call.complete .readBody).handle (.bodyRead result now))) := by
  obtain ⟨hrunning, hc, second, downs, before, hreports, huploaded, hparser, hknown, hcourse⟩ :=
    h.runs hs hmem
  rcases result with ec | message
  · refine hc.fails h hrunning ec false (goOn_call ..) (goOn_body ..) (fun _ ↦ ⟨id, id⟩)
      fun _ _ hretries ↦ ?_
    -- Some of the response was received, so nothing is tried again.
    have hgot : (s.call.complete .readBody).parser = some (.message before) := hparser
    rw [Call.retries, hgot] at hretries
    simp [Parser.gotSome] at hretries
  · obtain ⟨hmore, hlength⟩ := hparses before hparser
    have hknown' (known : ℕ) (hk : s.call.downTotal = some known) :
        message.contentLength = some known ∧ s.call.method ≠ .head ∧ message.bodySize ≤ known := by
      obtain ⟨hannounced, hmethod, -⟩ := hknown known hk
      obtain ⟨hsame, hle⟩ := hlength known hannounced hmethod
      exact ⟨hsame, hmethod, hle⟩
    rw [Call.handle]
    by_cases hdue : (s.call.complete .readBody).Due message.bodySize false now
    · rw [Call.onBody_of_due hc.onProgress hdue]
      exact hc.reads h hrunning hreports huploaded (goOn_call ..) (goOn_body ..) rfl rfl rfl rfl rfl
        rfl rfl rfl hknown' (hcourse.snoc hmore) rfl ⟨id, id⟩
    · rw [Call.onBody_of_not_due hdue]
      exact hc.reads h hrunning hreports huploaded (goOn_call ..) (goOn_body ..) rfl rfl rfl rfl rfl
        rfl (List.append_nil _).symm rfl hknown'
        ((List.append_nil downs).symm ▸ hcourse.mono hmore) rfl ⟨id, id⟩

theorem next_abort (h : Reports s n) (why : ClientError) :
    Next s n (.abort why) (s.goOn (.abort why) (s.call.abort why)) := by
  have heq : s.goOn (.abort why) (s.call.abort why) = { s with call := s.call.abort why } := by
    simp [Sending.goOn, Event.failure, Event.op, Event.source]
  have habort : s.call.abort why = s.call ∨ s.call.abort why = { s.call with aborted := why } := by
    rw [Call.abort]
    split_ifs
    · exact Or.inl rfl
    · exact Or.inr rfl
  -- Whatever the call is afterwards, nothing was reported.
  have hnext (t : Sending κ ρ) (hprogressed : t.call.progressed = s.call.progressed)
      (hretried : t.call.retried = s.call.retried) (ht : Reports t n) :
      Next s n (.abort why) t := by
    have hafter : n.after s (.abort why) t = n := by
      rw [after_of_progressed hretried (hprogressed.trans (List.append_nil _).symm), reportsOf_nil,
        List.append_nil]
    rw [Next, hafter]
    exact ⟨ht, iff_self_and.2 fun _ ↦ ⟨id, id⟩⟩
  rw [heq]
  rcases habort with hsame | haborted
  · rw [hsame]
    exact hnext s rfl rfl h
  · rw [haborted]
    refine hnext _ rfl rfl ⟨h.progressed, fun hrunning ↦ ?_, h.succeeded⟩
    obtain ⟨hset, hsize, hbefore, hfirst, hphase⟩ := h.running hrunning
    refine ⟨hset, hsize, hbefore, hfirst, fun op hop ↦ ?_⟩
    have hphase' := hphase op hop
    cases op with
    | writeBody =>
      obtain ⟨second, hwriting⟩ := hphase'
      exact ⟨second, hwriting.reports, hwriting.left, hwriting.bytes, hwriting.total,
        hwriting.underway⟩
    | _ => exact hphase'

/-! ### Runs -/

/-- **The step lemma**: every event keeps the reports in order where it is clean. -/
theorem Reports.step (h : Reports s n) (hs : s.call.Settled onComplete) {x : Event κ ρ × ℕ}
    (hparses : Parses s x.1) (hx : s.step x = some s') : Next s n x.1 s' := by
  obtain ⟨e, k⟩ := x
  obtain ⟨hallows, t, ht, rfl⟩ := Sending.call_of_step hx
  -- Only the write steps hand anything over.
  have hnone (hk : (k == 0) = true) : s.hand k = s := by rw [eq_of_beq hk, Sending.hand_zero]
  cases e with
  | abort why =>
    obtain rfl := Option.some.inj ht
    rw [hnone hallows]
    exact next_abort h why
  | begin target idle =>
    obtain ⟨hmem, rfl⟩ := Call.handle_of_step rfl ht
    rw [hnone hallows]
    exact next_begin h hs hmem target idle
  | refuse =>
    obtain ⟨hmem, rfl⟩ := Call.handle_of_step rfl ht
    rw [hnone hallows]
    exact next_refuse h hs hmem
  | resolved result =>
    obtain ⟨hmem, rfl⟩ := Call.handle_of_step rfl ht
    rw [hnone hallows]
    exact next_resolved h hs hmem result
  | connected result =>
    obtain ⟨hmem, rfl⟩ := Call.handle_of_step rfl ht
    rw [hnone hallows]
    exact next_connected h hs hmem result
  | handshaken result =>
    obtain ⟨hmem, rfl⟩ := Call.handle_of_step rfl ht
    rw [hnone hallows]
    exact next_handshaken h hs hmem result
  | headerWritten result now =>
    obtain ⟨hmem, rfl⟩ := Call.handle_of_step rfl ht
    exact next_headerWritten h hs hmem result now hallows
  | bodyWritten result now =>
    obtain ⟨hmem, rfl⟩ := Call.handle_of_step rfl ht
    exact next_bodyWritten h hs hmem result now hallows
  | headerRead result now =>
    obtain ⟨hmem, rfl⟩ := Call.handle_of_step rfl ht
    rw [hnone hallows]
    exact next_headerRead h hs hmem result now hparses
  | bodyRead result now =>
    obtain ⟨hmem, rfl⟩ := Call.handle_of_step rfl ht
    rw [hnone hallows]
    exact next_bodyRead h hs hmem result now hparses

/-- Nothing was reported of a call that send() has made. -/
theorem reports_start (hs : s.IsNew onComplete) (hset : s.call.onProgress = true) :
    Reports s {} := by
  obtain ⟨call, header, body, ⟨method, bodySize, onProgress, closed, rfl⟩, hsize, rfl⟩ := hs
  refine ⟨rfl, fun _ ↦ ⟨hset, hsize, Or.inl (underway_nil _), fun _ ↦ rfl, fun op hop ↦ ?_⟩,
    fun _ hmem ↦ absurd hmem List.not_mem_nil⟩
  have hfresh : Unreported ({ method, bodySize, onProgress, onComplete } : Call κ ρ) {} :=
    ⟨rfl, rfl, rfl, rfl⟩
  obtain rfl := List.mem_singleton.1 hop
  cases closed with
  | false => exact hfresh
  | true => exact hfresh

end Steps

/-- **Reports in order.** The reports of a call that succeeds are in order exactly if its second
attempt takes nothing back of what the first one had reported. -/
theorem reports_proper_iff {onComplete : Bool} {s t : Sending κ ρ} {n : Notes}
    (hs : s.IsNew onComplete) (hset : s.call.onProgress = true) (as : List (Event κ ρ × ℕ))
    (hparses : (reporting κ ρ onComplete).EveryStep (fun x a _ ↦ Parses x.1 a.1) (s, {}) as)
    (hrun : (reporting κ ρ onComplete).run (s, {}) as = some (t, n)) {response : ρ}
    (hsuccess : .response response ∈ t.call.promise) :
    t.call.progressed = n.reports.map (·.progress) ∧
      (Proper (t.body ≠ []) n.reports ↔
        (reporting κ ρ onComplete).EveryStep (fun x a _ ↦ Clean x.1 x.2 a.1) (s, {}) as) := by
  have hstep : ∀ x a y, x.1.call.Settled onComplete ∧ Reports x.1 x.2 → Parses x.1 a.1 →
      (reporting κ ρ onComplete).step x a = some y →
        (y.1.call.Settled onComplete ∧ Reports y.1 y.2) ∧
          (Sound y.2 ↔ Sound x.2 ∧ Clean x.1 x.2 a.1) := by
    rintro x a y ⟨hsettled, hreports⟩ hparses hstep
    obtain ⟨hx, hnotes⟩ := Machine.observed_step hstep
    obtain ⟨hnext, hiff⟩ := hreports.step hsettled hparses hx
    obtain ⟨-, c, hc, heq⟩ := Sending.call_of_step hx
    rw [hnotes]
    refine ⟨⟨?_, hnext⟩, hiff⟩
    rw [heq, goOn_call]
    exact hsettled.step hc
  have hsettled : s.call.Settled onComplete := by
    obtain ⟨call, header, body, hnew, -, rfl⟩ := hs
    exact Call.Settled.reachable (Machine.Reachable.init hnew)
  have hsound : Sound {} :=
    ⟨fun _ hr ↦ absurd hr List.not_mem_nil, fun _ hr ↦ absurd hr List.not_mem_nil⟩
  obtain ⟨⟨-, hend⟩, hiff⟩ :=
    Machine.everyStep_iff hstep ⟨hsettled, reports_start hs hset⟩ as hparses hrun
  obtain ⟨hbefore, second, downs, hreports, huploaded, hdowns⟩ := hend.succeeded response hsuccess
  refine ⟨hend.progressed, ?_⟩
  rw [proper_iff_sound hbefore hreports huploaded hdowns, hiff]
  exact and_iff_right hsound

/-- A PUT with an onProgress callback. -/
def put (body : Text) : Sending Bool Unit where
  call := { method := .put, bodySize := body.length, onProgress := true }
  header := ['h']
  body := body

/-- A kept-alive connection breaks in the middle of the body, and the second attempt is first heard
of when it is beyond. -/
def putBroken : List (Event Bool Unit × ℕ) :=
  [(.begin (.ok ⟨[], false⟩) (some false), 0), (.headerWritten (.ok false) 0, 1),
    (.bodyWritten (.ok (1, false)) 100000000, 1), (.bodyWritten (.error (.other 32)) 100000001, 0),
    (.resolved (.ok true), 0), (.connected (.ok (.ok ())), 0),
    (.headerWritten (.ok false) 100000002, 1), (.bodyWritten (.ok (2, false)) 200000002, 2),
    (.bodyWritten (.ok (1, true)) 200000003, 1),
    (.headerRead (.ok ⟨(), true, some 4, 0, false⟩) 200000004, 0),
    (.bodyRead (.ok ⟨(), true, some 4, 4, true⟩) 200000005, 0)]

theorem reports_proper_iff_broken : Proper (['a', 'b', 'c'] ≠ [])
    [⟨⟨.upload, 1, some 3⟩, false⟩, ⟨⟨.upload, 2, some 3⟩, false⟩, ⟨⟨.upload, 3, some 3⟩, true⟩,
      ⟨⟨.download, 4, some 4⟩, true⟩] := by
  have hnew : (put ['a', 'b', 'c']).IsNew true := ⟨_, _, _, ⟨.put, 3, true, false, rfl⟩, rfl, rfl⟩
  have hrun : ∃ t n, (reporting Bool Unit true).run (put ['a', 'b', 'c'], {}) putBroken =
      some (t, n) ∧ t.call.promise = [.response ()] ∧ t.body = ['a', 'b', 'c'] ∧ n.reports =
        [⟨⟨.upload, 1, some 3⟩, false⟩, ⟨⟨.upload, 2, some 3⟩, false⟩,
          ⟨⟨.upload, 3, some 3⟩, true⟩, ⟨⟨.download, 4, some 4⟩, true⟩] :=
    ⟨_, _, rfl, rfl, rfl, rfl⟩
  obtain ⟨t, n, hrun, hpromise, hbody, hreports⟩ := hrun
  rw [← hbody, ← hreports]
  exact (reports_proper_iff hnew rfl putBroken (by decide +kernel) hrun
    (hpromise ▸ List.mem_singleton_self _)).2.2 (by decide +kernel)

/-- The connection breaks after the whole body was written, and it is complete once more. -/
def putTwice : List (Event Bool Unit × ℕ) :=
  [(.begin (.ok ⟨[], false⟩) (some false), 0), (.headerWritten (.ok false) 0, 1),
    (.bodyWritten (.ok (3, true)) 1, 3), (.headerRead (.error (.other 104, .fresh)) 2, 0),
    (.resolved (.ok true), 0), (.connected (.ok (.ok ())), 0), (.headerWritten (.ok false) 3, 1),
    (.bodyWritten (.ok (3, true)) 4, 3), (.headerRead (.ok ⟨(), true, some 0, 0, true⟩) 5, 0)]

theorem completed_twice : ∃ s n, (put ['a', 'b', 'c']).IsNew true ∧
    (reporting Bool Unit true).EveryStep (fun x a _ ↦ Parses x.1 a.1) (put ['a', 'b', 'c'], {})
      putTwice ∧
    (reporting Bool Unit true).run (put ['a', 'b', 'c'], {}) putTwice = some (s, n) ∧
    s.call.promise = [.response ()] ∧ s.call.progressed =
      [⟨.upload, 3, some 3⟩, ⟨.upload, 3, some 3⟩, ⟨.download, 0, some 0⟩] ∧
    ¬Proper (s.body ≠ []) n.reports := by
  refine ⟨_, _, ⟨_, _, _, ⟨.put, 3, true, false, rfl⟩, rfl, rfl⟩, by decide +kernel, rfl, rfl, rfl,
    fun h ↦ ?_⟩
  obtain ⟨onTheWay, last, heq, -, hearly⟩ := h.completes .upload (by decide)
  have hway := congrArg List.dropLast heq
  rw [List.dropLast_concat] at hway
  exact absurd (hearly ⟨⟨.upload, 3, some 3⟩, true⟩ (hway ▸ by decide)) (by decide)

end CppGate.HttpClient
