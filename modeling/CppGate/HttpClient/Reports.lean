import CppGate.HttpClient.Attempts

/-!
# The reports of a call

onProgress hears of the upload and then of the download. What an observer notes of it (`Notes`) is
said here of lists of reports alone: the reports of one direction that is on the way (`Course`) or
complete (`Completed`), those of an attempt, and those of a call that was tried again.

A second attempt starts over, and what the first one reported has been delivered. Its reports are in
order (`Proper`) exactly if the second takes nothing back of them (`proper_iff_sound`).
-/

namespace CppGate.HttpClient

open Http

universe u v

variable {κ : Type u} {ρ : Type v}

/-! ### Reports -/

/-- A call of onProgress, and whether it was made because the request or the response is complete.
-/
structure Report where
  progress : Progress
  complete : Bool
  deriving DecidableEq, Repr

/-- Whether an event completes the request or the response, so that the last report of its handler
says so. -/
def Event.completes : Event κ ρ → Bool
  | .headerWritten (.ok isDone) _ | .bodyWritten (.ok (_, isDone)) _ => isDone
  | .headerRead (.ok message) _ | .bodyRead (.ok message) _ => message.isDone
  | _ => false

/-- The reports of one handler: all but the last are on the way. -/
def reportsOf (complete : Bool) (events : List Progress) : List Report :=
  events.dropLast.map (⟨·, false⟩) ++ events.getLast?.toList.map (⟨·, complete⟩)

/-- What an observer notes of a call. -/
structure Notes where
  /-- The reports so far. -/
  reports : List Report := []
  /-- Those of the first attempt, once there is a second. -/
  first : List Report := []
  /-- How much the first attempt had last reported while it was writing. -/
  earlier : ℕ := 0

/-- The notes after a step. -/
def Notes.after (n : Notes) (s : Sending κ ρ) (e : Event κ ρ) (t : Sending κ ρ) : Notes :=
  if t.call.retried && !s.call.retried then
    { n with first := n.reports, earlier := s.call.reportedBytes }
  else
    { n with reports := n.reports ++
        reportsOf e.completes (t.call.progressed.drop s.call.progressed.length) }

/-- A call from send() on, with the notes on its reports. -/
def reporting (κ : Type u) (ρ : Type v) (onComplete : Bool) :
    Machine (Sending κ ρ × Notes) (Event κ ρ × ℕ) :=
  (Sending.machine κ ρ onComplete).observed {} fun n s x t ↦ n.after s x.1 t

/-- **Reports in order**: an upload, only if there is a body, and then a download, each of them
growing, within a known total, and complete once and last. -/
structure Proper (hasBody : Prop) (reports : List Report) : Prop where
  split : ∃ uploads downloads, reports = uploads ++ downloads ∧
    (∀ r ∈ uploads, r.progress.direction = .upload) ∧
      ∀ r ∈ downloads, r.progress.direction = .download
  body : ∀ r ∈ reports, r.progress.direction = .upload → hasBody
  grows : ∀ direction, (reports.filter (·.progress.direction = direction)).Pairwise fun a b ↦
    a.progress.transferred ≤ b.progress.transferred
  within : ∀ r ∈ reports, ∀ total, r.progress.total = some total → r.progress.transferred ≤ total
  completes : ∀ direction, reports.filter (·.progress.direction = direction) ≠ [] →
    ∃ onTheWay last, reports.filter (·.progress.direction = direction) = onTheWay ++ [last] ∧
      last.complete = true ∧ ∀ r ∈ onTheWay, r.complete = false

/-! ### Reports of one direction -/

/-- The reports of a direction that is on the way, none beyond `done`. -/
structure Course (direction : Direction) (total : Option ℕ) (done : ℕ) (reports : List Report) :
    Prop where
  grows : reports.Pairwise fun a b ↦ a.progress.transferred ≤ b.progress.transferred
  each : ∀ r ∈ reports, r.progress.direction = direction ∧ r.progress.total = total ∧
    r.progress.transferred ≤ done ∧ r.complete = false

/-- The reports of a direction that is complete. -/
def Completed (direction : Direction) (reports : List Report) : Prop :=
  ∃ total onTheWay last, reports = onTheWay ++ [last] ∧
    Course direction total last.progress.transferred onTheWay ∧
    last.progress.direction = direction ∧ last.complete = true ∧
    (∀ known, total = some known → last.progress.transferred ≤ known) ∧
      ∀ known, last.progress.total = some known → last.progress.transferred ≤ known

variable {direction : Direction} {total : Option ℕ} {done done' : ℕ} {reports : List Report}

/-- A direction that has reported nothing is on its way. -/
theorem Course.nil : Course direction total done [] :=
  ⟨List.Pairwise.nil, fun _ h ↦ absurd h List.not_mem_nil⟩

/-- More may have been done than was reported. -/
theorem Course.mono (h : Course direction total done reports) (hle : done ≤ done') :
    Course direction total done' reports :=
  ⟨h.grows, fun r hr ↦ by
    obtain ⟨hdirection, htotal, hdone, hcomplete⟩ := h.each r hr
    exact ⟨hdirection, htotal, hdone.trans hle, hcomplete⟩⟩

/-- One more report. -/
theorem Course.snoc (h : Course direction total done reports) (hle : done ≤ done') :
    Course direction total done' (reports ++ [⟨⟨direction, done', total⟩, false⟩]) := by
  have hmono := h.mono hle
  refine ⟨List.pairwise_append.2 ⟨h.grows, List.pairwise_singleton _ _, fun a ha b hb ↦ ?_⟩,
    fun r hr ↦ ?_⟩
  · rw [List.mem_singleton.1 hb]
    exact (hmono.each a ha).2.2.1
  · rcases List.mem_append.1 hr with hr | hr
    · exact hmono.each r hr
    · rw [List.mem_singleton.1 hr]
      exact ⟨rfl, rfl, le_rfl, rfl⟩

/-- The report that it is complete. -/
theorem Course.completed (h : Course direction total done reports) (hle : done ≤ done')
    (hknown : ∀ known, total = some known → done' ≤ known) {total' : Option ℕ}
    (hknown' : ∀ known, total' = some known → done' ≤ known) :
    Completed direction (reports ++ [⟨⟨direction, done', total'⟩, true⟩]) :=
  ⟨total, reports, _, rfl, h.mono hle, rfl, rfl, hknown, hknown'⟩

/-- The upload of an attempt that is writing. -/
def Underway (body : Text) (done : ℕ) (reports : List Report) : Prop :=
  Course .upload (some body.length) done reports ∧ done ≤ body.length ∧
    (reports = [] ∧ done = 0 ∨ body ≠ [] ∧ ∃ r ∈ reports, r.progress.transferred = done)

/-- The upload of an attempt that wrote the request. -/
def Uploaded (body : Text) (reports : List Report) : Prop :=
  body = [] ∧ reports = [] ∨ body ≠ [] ∧ Completed .upload reports

theorem underway_nil (body : Text) : Underway body 0 [] :=
  ⟨.nil, Nat.zero_le _, Or.inl ⟨rfl, rfl⟩⟩

/-- A direction that is complete has said so. -/
theorem Completed.mem_complete (h : Completed direction reports) :
    ∃ r ∈ reports, r.complete = true := by
  obtain ⟨total, onTheWay, last, rfl, -, -, hcomplete, -⟩ := h
  exact ⟨last, List.mem_append_right _ (List.mem_singleton_self _), hcomplete⟩

/-! ### The notes -/

@[simp] theorem reportsOf_nil (complete : Bool) : reportsOf complete [] = [] := rfl

@[simp] theorem reportsOf_singleton (complete : Bool) (p : Progress) :
    reportsOf complete [p] = [⟨p, complete⟩] := rfl

@[simp] theorem reportsOf_pair (complete : Bool) (p q : Progress) :
    reportsOf complete [p, q] = [⟨p, false⟩, ⟨q, complete⟩] := rfl

/-- Only the last report of a handler can say that the direction is complete. -/
theorem reportsOf_concat (complete : Bool) (early : List Progress) (last : Progress) :
    reportsOf complete (early ++ [last]) = early.map (⟨·, false⟩) ++ [⟨last, complete⟩] := by
  simp [reportsOf]

theorem reportsOf_false (events : List Progress) :
    reportsOf false events = events.map (⟨·, false⟩) := by
  rcases List.eq_nil_or_concat events with rfl | ⟨early, last, rfl⟩
  · rfl
  · rw [List.concat_eq_append, reportsOf_concat, List.map_append]
    rfl

theorem map_progress_reportsOf (complete : Bool) (events : List Progress) :
    (reportsOf complete events).map (·.progress) = events := by
  rcases List.eq_nil_or_concat events with rfl | ⟨early, last, rfl⟩
  · rfl
  · simp [reportsOf, Function.comp_def]

/-- Within an attempt the reports of a handler are appended. -/
theorem after_of_progressed {n : Notes} {s t : Sending κ ρ} {e : Event κ ρ}
    (hretried : t.call.retried = s.call.retried) {events : List Progress}
    (hprogressed : t.call.progressed = s.call.progressed ++ events) :
    n.after s e t = { n with reports := n.reports ++ reportsOf e.completes events } := by
  rw [Notes.after, hretried, Bool.and_not_self, if_neg Bool.false_ne_true, hprogressed,
    List.drop_left]

/-- A retry notes what the first attempt had reported. -/
theorem after_of_retry {n : Notes} {s t : Sending κ ρ} {e : Event κ ρ}
    (hs : s.call.retried = false) (ht : t.call.retried = true) :
    n.after s e t = { n with first := n.reports, earlier := s.call.reportedBytes } := by
  rw [Notes.after, hs, ht]
  rfl

/-! ### Two attempts -/

/-- The reports of the attempt before. -/
def Before (body : Text) (n : Notes) : Prop :=
  Underway body n.earlier n.first ∨ body ≠ [] ∧ n.earlier = 0 ∧ Completed .upload n.first

/-- The first attempt did not report its upload complete, and the second has reported no less than
the first. -/
def Sound (n : Notes) : Prop :=
  (∀ r ∈ n.first, r.complete = false) ∧
    ∀ r ∈ n.first, ∀ r' ∈ n.reports.drop n.first.length, r'.progress.direction = .upload →
      r.progress.transferred ≤ r'.progress.transferred

/-! ### At the end -/

section Ends

variable {body : Text} {n : Notes} {second downs : List Report}

theorem Course.direction_eq (h : Course direction total done reports) :
    ∀ r ∈ reports, r.progress.direction = direction :=
  fun r hr ↦ (h.each r hr).1

theorem Completed.direction_eq (h : Completed direction reports) :
    ∀ r ∈ reports, r.progress.direction = direction := by
  obtain ⟨total, onTheWay, last, rfl, hcourse, hdirection, -⟩ := h
  intro r hr
  rcases List.mem_append.1 hr with hr | hr
  · exact hcourse.direction_eq r hr
  · rw [List.mem_singleton.1 hr, hdirection]

/-- The reports of a complete direction grow. -/
theorem Completed.grows (h : Completed direction reports) :
    reports.Pairwise fun a b ↦ a.progress.transferred ≤ b.progress.transferred := by
  obtain ⟨total, onTheWay, last, rfl, hcourse, -⟩ := h
  refine List.pairwise_append.2 ⟨hcourse.grows, List.pairwise_singleton _ _, fun a ha b hb ↦ ?_⟩
  rw [List.mem_singleton.1 hb]
  exact (hcourse.each a ha).2.2.1

theorem Completed.within (h : Completed direction reports) :
    ∀ r ∈ reports, ∀ known, r.progress.total = some known → r.progress.transferred ≤ known := by
  obtain ⟨total, onTheWay, last, rfl, hcourse, -, -, hknown, hlast⟩ := h
  intro r hr known htotal
  rcases List.mem_append.1 hr with hr | hr
  · obtain ⟨-, hsame, hdone, -⟩ := hcourse.each r hr
    exact hdone.trans (hknown known (hsame.symm.trans htotal))
  · obtain rfl := List.mem_singleton.1 hr
    exact hlast known htotal

/-- The reports in one direction are those of the attempts, or those of the response. -/
theorem filter_direction (hups : ∀ r ∈ n.first ++ second, r.progress.direction = .upload)
    (hdowns : ∀ r ∈ downs, r.progress.direction = .download) (direction : Direction) :
    (n.first ++ second ++ downs).filter (·.progress.direction = direction) =
      match direction with
      | .upload => n.first ++ second
      | .download => downs := by
  rw [List.filter_append]
  cases direction with
  | upload =>
    rw [List.filter_eq_self.2 fun r hr ↦ decide_eq_true (hups r hr),
      List.filter_eq_nil_iff.2 fun r hr ↦ by rw [hdowns r hr]; decide, List.append_nil]
  | download =>
    rw [List.filter_eq_nil_iff.2 fun r hr ↦ by rw [hups r hr]; decide,
      List.filter_eq_self.2 fun r hr ↦ decide_eq_true (hdowns r hr), List.nil_append]

/-- The attempt before reported its upload only. -/
theorem Before.uploads (h : Before body n) : ∀ r ∈ n.first, r.progress.direction = .upload := by
  rcases h with ⟨hcourse, -⟩ | ⟨-, -, hcompleted⟩
  · exact hcourse.direction_eq
  · exact hcompleted.direction_eq

/-- It reported something only if there is a body. -/
theorem Before.body_ne_nil (h : Before body n) (hfirst : n.first ≠ []) : body ≠ [] := by
  rcases h with ⟨-, -, ⟨hnil, -⟩ | ⟨hbody, -⟩⟩ | ⟨hbody, -⟩
  · exact absurd hnil hfirst
  · exact hbody
  · exact hbody

theorem Uploaded.uploads (h : Uploaded body reports) :
    ∀ r ∈ reports, r.progress.direction = .upload := by
  rcases h with ⟨-, rfl⟩ | ⟨-, hcompleted⟩
  · exact fun _ h ↦ absurd h List.not_mem_nil
  · exact hcompleted.direction_eq

/-- **The reports of a call that succeeded** are in order exactly if the second attempt did not take
back what the first one had reported. -/
theorem proper_iff_sound (hbefore : Before body n)
    (hreports : n.reports = n.first ++ second ++ downs) (huploaded : Uploaded body second)
    (hdowns : Completed .download downs) :
    Proper (body ≠ []) n.reports ↔ Sound n := by
  have hups : ∀ r ∈ n.first ++ second, r.progress.direction = .upload := fun r hr ↦
    (List.mem_append.1 hr).elim (hbefore.uploads r) (huploaded.uploads r)
  have hfilter := filter_direction hups hdowns.direction_eq
  rw [← hreports] at hfilter
  have hdrop : n.reports.drop n.first.length = second ++ downs := by
    rw [hreports, List.append_assoc, List.drop_left]
  constructor
  · intro h
    have hups' := hfilter .upload
    refine ⟨fun r hr ↦ ?_, fun r hr r' hr' hupload ↦ ?_⟩
    · have hbody := hbefore.body_ne_nil (List.ne_nil_of_mem hr)
      obtain ⟨total, onTheWay, last, rfl, -⟩ := (huploaded.resolve_left (hbody ·.1)).2
      have hne : n.reports.filter (·.progress.direction = .upload) ≠ [] := by
        rw [hups', ← List.append_assoc]
        exact List.concat_ne_nil _ _
      obtain ⟨early, final, heq, -, hearly⟩ := h.completes .upload hne
      rw [hups', ← List.append_assoc] at heq
      rw [← (List.append_inj' heq rfl).1] at hearly
      exact hearly r (List.mem_append_left _ hr)
    · have hgrows := h.grows .upload
      rw [hups'] at hgrows
      rw [hdrop] at hr'
      rcases List.mem_append.1 hr' with hr' | hr'
      · exact (List.pairwise_append.1 hgrows).2.2 r hr r' hr'
      · exact absurd ((hdowns.direction_eq r' hr').symm.trans hupload) Direction.noConfusion
  · rintro ⟨hincomplete, hgrows⟩
    obtain ⟨hcourse, hlength, -⟩ : Underway body n.earlier n.first := by
      refine hbefore.resolve_right fun hwhole ↦ ?_
      obtain ⟨r, hr, hcomplete⟩ := hwhole.2.2.mem_complete
      exact Bool.false_ne_true ((hincomplete r hr).symm.trans hcomplete)
    have hsecond : second ≠ [] → body ≠ [] ∧ Completed .upload second := fun hne ↦
      huploaded.resolve_left fun hnone ↦ hne hnone.2
    rw [hdrop] at hgrows
    refine ⟨⟨_, downs, hreports, hups, hdowns.direction_eq⟩, fun r hr hupload ↦ ?_,
      fun direction ↦ ?_, fun r hr known htotal ↦ ?_, fun direction hne ↦ ?_⟩
    · rw [hreports, List.mem_append, List.mem_append] at hr
      rcases hr with (hr | hr) | hr
      · exact hbefore.body_ne_nil (List.ne_nil_of_mem hr)
      · exact (hsecond (List.ne_nil_of_mem hr)).1
      · exact absurd ((hdowns.direction_eq r hr).symm.trans hupload) Direction.noConfusion
    · rw [hfilter]
      cases direction with
      | upload =>
        refine List.pairwise_append.2 ⟨hcourse.grows, ?_, fun r hr r' hr' ↦ ?_⟩
        · rcases huploaded with ⟨-, rfl⟩ | ⟨-, hcompleted⟩
          · exact List.Pairwise.nil
          · exact hcompleted.grows
        · exact hgrows r hr r' (List.mem_append_left _ hr') (huploaded.uploads r' hr')
      | download => exact hdowns.grows
    · rw [hreports, List.mem_append, List.mem_append] at hr
      rcases hr with (hr | hr) | hr
      · obtain ⟨-, hsame, hdone, -⟩ := hcourse.each r hr
        rw [hsame, Option.some.injEq] at htotal
        exact htotal ▸ hdone.trans hlength
      · exact (hsecond (List.ne_nil_of_mem hr)).2.within r hr known htotal
      · exact hdowns.within r hr known htotal
    · rw [hfilter] at hne ⊢
      cases direction with
      | upload =>
        have hbody : body ≠ [] := by
          rintro rfl
          have hfirst : n.first = [] := by
            by_contra hfirst
            exact hbefore.body_ne_nil hfirst rfl
          have hnone := (huploaded.resolve_right (·.1 rfl)).2
          exact hne (by rw [hfirst, hnone]; rfl)
        obtain ⟨total, onTheWay, last, rfl, hway, -, hlast, -⟩ :=
          (huploaded.resolve_left (hbody ·.1)).2
        refine ⟨n.first ++ onTheWay, last, (List.append_assoc ..).symm, hlast, fun r hr ↦ ?_⟩
        rcases List.mem_append.1 hr with hr | hr
        · exact hincomplete r hr
        · exact (hway.each r hr).2.2.2
      | download =>
        obtain ⟨total, onTheWay, last, rfl, hway, -, hlast, -⟩ := hdowns
        exact ⟨onTheWay, last, rfl, hlast, fun r hr ↦ (hway.each r hr).2.2.2⟩

end Ends

/-! ### What a second attempt takes back -/

variable {n : Notes}

/-- Reports of the upload that are added take nothing back if they say no less than the first
attempt's. -/
theorem sound_append {added : List Report} (hfirst : n.first <+: n.reports) :
    Sound { n with reports := n.reports ++ added } ↔ Sound n ∧ ∀ r ∈ n.first, ∀ r' ∈ added,
      r'.progress.direction = .upload → r.progress.transferred ≤ r'.progress.transferred := by
  have hdrop : (n.reports ++ added).drop n.first.length =
      n.reports.drop n.first.length ++ added :=
    List.drop_append_of_le_length hfirst.length_le
  rw [Sound, Sound, and_assoc]
  refine and_congr_right fun _ ↦ ⟨fun h ↦ ?_, fun h r hr r' hr' hupload ↦ ?_⟩
  · refine ⟨fun r hr r' hr' ↦ h r hr r' ?_, fun r hr r' hr' ↦ h r hr r' ?_⟩
    · rw [hdrop]
      exact List.mem_append_left _ hr'
    · rw [hdrop]
      exact List.mem_append_right _ hr'
  · rw [hdrop] at hr'
    rcases List.mem_append.1 hr' with hr' | hr'
    · exact h.1 r hr r' hr' hupload
    · exact h.2 r hr r' hr' hupload

/-- Reports of the download take nothing back. -/
theorem sound_download {added : List Report} (hfirst : n.first <+: n.reports)
    (hadded : ∀ r ∈ added, r.progress.direction = .download) :
    Sound { n with reports := n.reports ++ added } ↔ Sound n := by
  rw [sound_append hfirst]
  refine and_iff_left fun r _ r' hr' hupload ↦ ?_
  exact absurd ((hadded r' hr').symm.trans hupload) Direction.noConfusion

/-- The attempt before reported no more than the body. -/
theorem Before.earlier_le {body : Text} (h : Before body n) : n.earlier ≤ body.length := by
  rcases h with ⟨-, hle, -⟩ | ⟨-, hzero, -⟩
  · exact hle
  · exact hzero.trans_le (Nat.zero_le _)

theorem Before.earlier_of_nil {body : Text} (h : Before body n) (hfirst : n.first = []) :
    n.earlier = 0 := by
  rcases h with ⟨-, -, ⟨-, hzero⟩ | ⟨-, r, hr, -⟩⟩ | ⟨-, hzero, -⟩
  · exact hzero
  · rw [hfirst] at hr
    exact absurd hr List.not_mem_nil
  · exact hzero

/-- What a report has to reach. -/
theorem Before.reaches {body : Text} (h : Before body n) (hsound : Sound n) (done : ℕ) :
    (∀ r ∈ n.first, r.progress.transferred ≤ done) ↔ n.first = [] ∨ n.earlier ≤ done := by
  obtain ⟨hcourse, -, hnone | ⟨-, r₀, hr₀, hearlier⟩⟩ : Underway body n.earlier n.first := by
    refine h.resolve_right fun hwhole ↦ ?_
    obtain ⟨r, hr, hcomplete⟩ := hwhole.2.2.mem_complete
    exact Bool.false_ne_true ((hsound.1 r hr).symm.trans hcomplete)
  · rw [hnone.1]
    exact iff_of_true (fun _ hr ↦ absurd hr List.not_mem_nil) (Or.inl rfl)
  · constructor
    · exact fun hall ↦ Or.inr (hearlier ▸ hall r₀ hr₀)
    · rintro (hnone | hle) r hr
      · rw [hnone] at hr
        exact absurd hr List.not_mem_nil
      · exact (hcourse.each r hr).2.2.1.trans hle

end CppGate.HttpClient
