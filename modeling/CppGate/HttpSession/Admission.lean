import CppGate.HttpSession.Control

/-!
# Sessions that the registry admits

What a session and its registry know of each other, and what becomes of a stop. Only run() asks to
be admitted, and only on_stop() consumes a stop: the handlers change nothing of that (`Frame`). A
session that is not admitted has nothing to do, and one that was admitted before the server began to
stop is told (`Admission`).
-/

namespace CppGate.HttpSession

open Http

/-- What the handlers leave alone. -/
structure Frame where
  stopping : Bool
  registered : Bool
  stoppers : ℕ
  launch : Launch
  stopRan : Bool
  /-- Tasks on_stop() that are posted. -/
  stops : ℕ
  deriving DecidableEq, Repr

/-- What the handlers leave alone. -/
def Session.frame (s : Session) : Frame :=
  ⟨s.stopping, s.registered, s.stoppers, s.launch, s.stopRan, s.tasks.count .stop⟩

variable {s t : Session} {beast : Beast} {cfg : Config}

theorem frame_post_write (s : Session) : (s.post .write).frame = s.frame := by
  show Frame.mk _ _ _ _ _ ((s.tasks ++ [Task.write]).count Task.stop) = _
  rw [List.count_append]
  rfl

theorem frame_doEof (s : Session) : (doEof s).frame = s.frame := by
  rw [doEof]
  cases s.stream <;> cases s.linger <;> rfl

theorem frame_doWrite (s : Session) : (doWrite s).frame = s.frame := by
  rw [doWrite]
  split
  · rfl
  · exact frame_post_write s

theorem frame_queueWrite (s : Session) (response : HttpResponse) :
    (queueWrite s response).frame = s.frame := by
  rw [queueWrite]
  dsimp only
  split
  · exact frame_doWrite { s with responseQueue := s.responseQueue ++ [response] }
  · rfl

/-- What on_read() does leaves the admission alone. -/
theorem frame_onRead (s : Session) (c : Completion) : (onRead beast s c).frame = s.frame := by
  cases c with
  | part bytes => rfl
  | error ec targetEmpty =>
    by_cases hend : ec = .endOfStream
    · subst hend
      exact frame_doEof { s with waiting := false }
    · rw [onRead_error hend]
      split
      · exact frame_queueWrite { s with waiting := false, linger := true } _
      · rfl
  | success found =>
    rw [onRead]
    dsimp only
    split
    · rfl
    · split
      · exact frame_queueWrite { s with waiting := false, buffered := found.left } _
      · rfl

theorem frame_onReadHeader (s : Session) (c : Completion) :
    (onReadHeader beast s c).frame = s.frame := by
  cases c with
  | part | error => exact frame_onRead s _
  | success found =>
    rw [onReadHeader]
    split <;> rfl

theorem frame_onWrite (s : Session) (keepAlive : Bool) (c : Completion) :
    (onWrite s keepAlive c).frame = s.frame := by
  cases c with
  | part | error => exact frame_doEof s
  | success found =>
    rw [onWrite]
    split
    · split
      · rfl
      · exact frame_doEof s
    · exact frame_doWrite s

theorem frame_onDetect (s : Session) (c : Completion) : (onDetect cfg s c).frame = s.frame := by
  cases c with
  | part | error => rfl
  | success found =>
    rw [onDetect]
    split <;> split <;> rfl

/-- A handler leaves the frame alone. -/
theorem frame_handle (cfg : Config) (s : Session) (kind : Kind) (c : Completion) :
    (handle cfg s kind c).frame = s.frame := by
  cases c with
  | part bytes =>
    show (goOn s kind bytes).frame = s.frame
    rw [goOn]
    split <;> rfl
  | error ec targetEmpty =>
    cases kind with
    | detect => exact frame_onDetect s _
    | header => exact frame_onReadHeader s _
    | body => exact frame_onRead s _
    | write response => exact frame_onWrite s _ _
    | handshake | continueWrite | linger | shutdown => rfl
  | success found =>
    cases kind with
    | detect => exact frame_onDetect s _
    | header => exact frame_onReadHeader s _
    | body => exact frame_onRead s _
    | write response => exact frame_onWrite s _ _
    | handshake | continueWrite | linger | shutdown => rfl

/-- Of the tasks only on_stop() changes it. -/
theorem frame_runTask (s : Session) (task : Task) :
    (runTask s task).frame =
      if task = .stop then { s.frame with stopRan := true } else s.frame := by
  cases task with
  | run =>
    show (onRun s).frame = s.frame
    rw [onRun]
    dsimp only
    split <;> rfl
  | stop =>
    show (onStop s).frame = { s.frame with stopRan := true }
    rw [onStop]
    dsimp only
    split <;> rfl
  | write =>
    show (runWrite s).frame = s.frame
    rw [runWrite]
    split <;> rfl

/-! ### Admission -/

/-- on_stop() is posted or has run. -/
def Frame.Told (frame : Frame) : Prop :=
  0 < frame.stops ∨ frame.stopRan = true

/-- What a session's frame says: the registry has it if it was admitted, and then a server that
stops is about to call its stop() or has called it. -/
structure Frame.Heeds (frame : Frame) : Prop where
  admitted : frame.registered = true ↔ frame.launch = .added ∨ frame.launch = .launched
  told : frame.stopping = true → frame.registered = true → 0 < frame.stoppers ∨ frame.Told

/-- What a session and its registry know of each other. A session that the registry does not have
has nothing to do. -/
structure Admission (s : Session) : Prop where
  heeds : s.frame.Heeds
  outside : s.registered = false → s.tasks = [] ∧ s.operations = [] ∧ s.stoppers = 0

/-- Whatever has something to do is admitted. -/
theorem Admission.registered (h : Admission s)
    (hwork : s.tasks ≠ [] ∨ s.operations ≠ [] ∨ 0 < s.stoppers) : s.registered = true := by
  rw [← Bool.not_eq_false]
  intro hout
  obtain ⟨htasks, hoperations, hstoppers⟩ := h.outside hout
  rcases hwork with hwork | hwork | hwork
  · exact hwork htasks
  · exact hwork hoperations
  · omega

/-- An admitted session stays so. -/
theorem admission_of_registered (hregistered : s.registered = true) (hheeds : s.frame.Heeds) :
    Admission s :=
  ⟨hheeds, fun hout ↦ absurd (hregistered.symm.trans hout) (by decide)⟩

/-- **The step lemma.** -/
theorem admission_step {action : Action} (h : Admission s) (hstep : step cfg s action = some t) :
    Admission t := by
  cases stepped_of_step hstep with
  | run hlaunch =>
    have hout : s.registered = false := by
      rw [← Bool.not_eq_true]
      intro hregistered
      rcases h.heeds.admitted.1 hregistered with hadded | hlaunched
      · exact absurd (hlaunch.symm.trans hadded) nofun
      · exact absurd (hlaunch.symm.trans hlaunched) nofun
    rw [add]
    split
    · refine ⟨⟨?_, fun _ hregistered ↦ absurd (hout.symm.trans hregistered) Bool.false_ne_true⟩,
        h.outside⟩
      show s.registered = true ↔ Launch.refused = .added ∨ Launch.refused = .launched
      rw [hout]
      decide
    · next hopen =>
      refine admission_of_registered rfl ⟨?_, fun hstopping _ ↦ absurd hstopping hopen⟩
      show true = true ↔ Launch.added = .added ∨ Launch.added = .launched
      decide
  | dispatch hlaunch =>
    have hregistered : s.registered = true := h.heeds.admitted.2 (Or.inl hlaunch)
    refine admission_of_registered hregistered ⟨?_, fun hstopping hin ↦ ?_⟩
    · exact ⟨fun _ ↦ Or.inr rfl, fun _ ↦ hregistered⟩
    · refine (h.heeds.told hstopping hin).imp_right (Or.imp_left fun hstops ↦ ?_)
      show 0 < (s.tasks ++ [Task.run]).count Task.stop
      rwa [List.count_append]
  | stopAll =>
    refine ⟨⟨h.heeds.admitted, fun _ hregistered ↦ Or.inl ?_⟩, fun hout ↦ ?_⟩
    · show 0 < if s.registered then s.stoppers + 1 else s.stoppers
      rw [if_pos (show s.registered = true from hregistered)]
      exact Nat.succ_pos _
    · obtain ⟨htasks, hoperations, hstoppers⟩ := h.outside hout
      refine ⟨htasks, hoperations, ?_⟩
      show (if s.registered then s.stoppers + 1 else s.stoppers) = 0
      rw [show s.registered = false from hout, if_neg Bool.false_ne_true, hstoppers]
  | stop hstoppers =>
    refine admission_of_registered (h.registered (Or.inr (Or.inr hstoppers)))
      ⟨h.heeds.admitted, fun _ _ ↦ Or.inr (Or.inl ?_)⟩
    show 0 < (s.tasks ++ [Task.stop]).count Task.stop
    rw [List.count_append]
    exact Nat.succ_pos _
  | task task tasks ht =>
    have hregistered := h.registered (Or.inl (by rw [ht]; exact List.cons_ne_nil _ _))
    have hframe := frame_runTask { s with tasks := tasks } task
    have hin : (runTask { s with tasks := tasks } task).registered = true := by
      have hproj := congrArg Frame.registered hframe
      split at hproj <;> exact hproj.trans hregistered
    refine admission_of_registered hin ?_
    rw [hframe]
    split
    · exact ⟨h.heeds.admitted, fun _ _ ↦ Or.inr (Or.inr rfl)⟩
    · next hother =>
      refine ⟨h.heeds.admitted, fun hstopping hregistered ↦ ?_⟩
      refine (h.heeds.told hstopping hregistered).imp_right (Or.imp_left fun hstops ↦ ?_)
      change 0 < s.tasks.count .stop at hstops
      rwa [ht, List.count_cons_of_ne (by simpa using hother)] at hstops
  | complete kind c hmem =>
    exact admission_of_registered (h.registered (Or.inr (Or.inl (List.ne_nil_of_mem hmem))))
      h.heeds
  | handle kind c hmem =>
    have hregistered := h.registered (Or.inr (Or.inl (List.ne_nil_of_mem hmem)))
    have hframe := frame_handle cfg (s.without { kind := kind, done := some c }) kind c
    refine admission_of_registered ((congrArg Frame.registered hframe).trans hregistered) ?_
    rw [hframe]
    exact h.heeds

/-- **Admission** holds of every session, whatever threads and its strand do. -/
theorem admission_of_reachable (h : (machine cfg).Reachable s) : Admission s := by
  refine h.invariant (I := Admission) ?_ fun _ _ _ hs hstep ↦ admission_step hs hstep
  rintro _ rfl
  refine ⟨⟨?_, fun _ hregistered ↦ absurd hregistered Bool.false_ne_true⟩, fun _ ↦ ⟨rfl, rfl, rfl⟩⟩
  show false = true ↔ Launch.created = .added ∨ Launch.created = .launched
  decide

end CppGate.HttpSession
