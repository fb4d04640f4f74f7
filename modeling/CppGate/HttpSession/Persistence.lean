import CppGate.HttpSession.Discipline
import CppGate.Routing.Dispatch

/-!
# Keeping the connection

Whether a session reads another request is decided by the response alone, in on_write(), and a
response keeps the connection unless a handler or a stop says otherwise: nothing carries over from
the request. So the session does what the client asked for exactly where the client asked to keep
the connection, or where the session is stopping (`persistence_honoured`).
-/

namespace CppGate.HttpSession

open Http Routing

universe u

/-! ### What the client is promised -/

/-- A request, or an error, that is owed a response. -/
def Event.owed : Event → Bool
  | .request _ _ _ => true
  | .refusal _ => true
  | _ => false

/-- What the last response is for. -/
def lastOwed (history : List Event) : Option Event :=
  (history.filter Event.owed).getLast?

/-- The session closes the connection: all it may still do is tear down. -/
structure Closing (s : Session) : Prop where
  kinds : ∀ kind ∈ s.kinds, kind = .linger ∨ kind = .shutdown
  queue : s.responseQueue = []
  launched : ¬s.unlaunched

/-- **Persistence is honoured**: when the response to a request has been written, the session closes
the connection and reads nothing more, if the client asked for that, and reads the next request if
the client asked to keep the connection and the session is not stopping. -/
def Honours (beast : Beast) (x : Session × List Event) : Prop :=
  ∀ i response request routed (wasStopping stopping : Bool),
    x.2[i]? = some (.written response stopping) →
    lastOwed (x.2.take i) = some (.request request routed wasStopping) →
      (request.keepAlive beast = false →
        Closing x.1 ∧ ∀ e ∈ x.2.drop (i + 1), e.reads = false) ∧
      (request.keepAlive beast = true → stopping = false → x.2[i + 1]? = some .read)

/-- Every client whose response has been written asked to keep the connection, or the session was
stopping. -/
def AskedToKeep (beast : Beast) (history : List Event) : Prop :=
  ∀ i response request routed (wasStopping stopping : Bool),
    history[i]? = some (.written response stopping) →
    lastOwed (history.take i) = some (.request request routed wasStopping) →
      request.keepAlive beast = true ∨ stopping = true

/-! ### Responses that keep the connection -/

section Routes

variable {env : Env} {ω : Type u}

/-- The function leaves what keep_alive() says of the response. -/
def LeavesKeepAlive (beast : Beast) (f : HttpHandler ω) : Prop :=
  ∀ req x, (f req x).2.response.keepAlive beast = x.response.keepAlive beast

/-- The send functions leave the Connection field. -/
theorem keepAlive_send {beast : Beast} (hbeast : beast.Lawful) (res : HttpResponse) (status : ℕ)
    (content : Text) :
    (res.send beast status content).2.keepAlive beast = res.keepAlive beast := by
  rw [HttpResponse.send, HttpResponse.preparePayload]
  split
  · rfl
  · exact hbeast.keepAlive_contentLength _ _ _

/-- A response that nobody told otherwise keeps the connection. -/
theorem keepAlive_routed (hbeast : env.beast.Lawful) {r : Router env ω}
    (hr : r.AllHttp (LeavesKeepAlive env.beast)) (request : Request) {x : Exchange ω}
    (hx : x.response = {}) : (routed r request x).2.keepAlive env.beast = true := by
  let P : Exchange ω → Prop := fun y ↦ y.response.keepAlive env.beast = true
  have hkeeps : ∀ f : HttpHandler ω, LeavesKeepAlive env.beast f → Keeps P f :=
    fun f hf req y hy ↦ (hf req y).trans hy
  have herror : Keeps P (internalServerError (ω := ω) env) := fun req y hy ↦
    (keepAlive_send hbeast y.response 500 _).trans hy
  have hfresh : x.response.keepAlive env.beast = true := by
    rw [hx]
    exact hbeast.keepAlive_default 11 [] rfl
  have hall : r.AllHttp (Keeps P) := hr.imp hkeeps
  exact route_keeps request hall herror (fun _ _ hy ↦ hy)
    (runGlobals_keeps request hall.globals hfresh)

end Routes

variable {s t : Session} {beast : Beast} {cfg : Config}

/-! ### The response being written -/

theorem lastOwed_append_of_none {history events : List Event}
    (h : ∀ e ∈ events, e.owed = false) : lastOwed (history ++ events) = lastOwed history := by
  have hnone : events.filter Event.owed = [] :=
    List.filter_eq_nil_iff.2 fun e he ↦ by rw [h e he]; exact Bool.false_ne_true
  rw [lastOwed, List.filter_append, hnone, List.append_nil]
  rfl

/-- The last one that is owed a response does. -/
theorem lastOwed_append_cons {history events : List Event} {e : Event} (he : e.owed = true)
    (h : ∀ e ∈ events, e.owed = false) : lastOwed (history ++ e :: events) = some e := by
  have hnone : events.filter Event.owed = [] :=
    List.filter_eq_nil_iff.2 fun e he ↦ by rw [h e he]; exact Bool.false_ne_true
  rw [lastOwed, List.filter_append, List.filter_cons_of_pos he, hnone,
    List.getLast?_append_cons]
  rfl

theorem owed_begun {e : Event} (he : e ∈ begun s t) : e.owed = false := by
  rcases mem_begun he with ⟨rfl, -⟩ | ⟨response, rfl⟩ <;> rfl

theorem owed_of_answered {e : Event} {response : HttpResponse}
    (h : e.answered beast = some response) : e.owed = true := by
  cases e with
  | request | refusal => rfl
  | read | write | written => cases h

/-- The response that is queued or written is for what was found last. -/
def Current (beast : Beast) (x : Session × List Event) : Prop :=
  ∀ response, .write response ∈ x.1.kinds ∨ response ∈ x.1.responseQueue →
    ∃ e, lastOwed x.2 = some e ∧ e.answered beast = some response

/-- **The step lemma**: the response at hand is for what was found last. -/
theorem current_step {action : Action} {history : List Event} (hstep : Control cfg s action t)
    (h : Current cfg.beast (s, history)) :
    Current cfg.beast (t, history ++ log s action t) := by
  intro response hresponse
  change .write response ∈ t.kinds ∨ response ∈ t.responseQueue at hresponse
  dsimp only
  cases hstep with
  | other hquiet hkinds hqueue =>
    rw [hkinds, hqueue] at hresponse
    rw [log_quiet hquiet, lastOwed_append_of_none fun _ ↦ owed_begun]
    exact h response hresponse
  | begins _ _ _ hkinds hqueue =>
    rw [hqueue] at hresponse
    rcases hresponse with hmem | hmem
    · rcases hkinds with hkinds | hkinds <;> rw [hkinds] at hmem <;>
        exact absurd (List.mem_singleton.1 hmem) nofun
    · exact absurd hmem List.not_mem_nil
  | @writes first _ _ hqueue _ hkinds hqueue' =>
    have hfirst : response = first := by
      rw [hkinds, hqueue'] at hresponse
      rcases hresponse with hmem | hmem
      · exact Kind.write.inj (List.mem_singleton.1 hmem)
      · exact absurd hmem List.not_mem_nil
    rw [log_quiet rfl, lastOwed_append_of_none fun _ ↦ owed_begun]
    refine h response (Or.inr ?_)
    dsimp only
    rw [hqueue, hfirst]
    exact List.mem_singleton_self first
  | @reacts kind c _ hidle _ _ hkinds hqueue =>
    rcases hresponse with hmem | hmem
    · -- the write goes on
      rw [hkinds] at hmem
      obtain rfl := write_of_reaction hmem
      have hnone : ∀ e ∈ log s (.handle (.write response) c) t, e.owed = false := by
        intro e he
        rcases List.mem_append.1 he with he | he
        · cases c with
          | success => exact List.mem_singleton.1 he ▸ rfl
          | part | error => exact absurd he List.not_mem_nil
        · exact owed_begun he
      rw [lastOwed_append_of_none hnone]
      refine h response (Or.inl ?_)
      dsimp only
      rw [hidle]
      exact List.mem_singleton_self _
    · rw [hqueue, queued_reaction, Option.mem_toList, Option.bind_eq_some_iff] at hmem
      obtain ⟨e, he, hanswered⟩ := hmem
      refine ⟨e, ?_, hanswered⟩
      rw [log, he]
      exact lastOwed_append_cons (owed_of_answered hanswered) fun _ ↦ owed_begun

/-! ### After a response -/

/-- After do_eof() all that is left is the teardown. -/
theorem closing_eof (hlaunch : ¬t.unlaunched) (hkinds : t.kinds = (eofReaction s).kinds)
    (hqueue : t.responseQueue = (eofReaction s).queued) : Closing t :=
  ⟨fun _ hkind ↦ closes_of_eofReaction (hkinds ▸ hkind), hqueue.trans (queued_eofReaction s),
    hlaunch⟩

/-- A session that closes the connection goes on doing so. -/
theorem closing_step {action : Action} (h : Closing s) (hstep : Control cfg s action t) :
    Closing t := by
  cases hstep with
  | other _ hkinds hqueue _ hlaunch =>
    exact ⟨hkinds ▸ h.kinds, hqueue.trans h.queue, mt hlaunch h.launched⟩
  | begins _ _ hlaunch => exact absurd hlaunch h.launched
  | writes _ hqueue => exact absurd (hqueue.symm.trans h.queue) (List.cons_ne_nil _ _)
  | @reacts kind c _ hidle _ hlaunch hkinds hqueue =>
    have hkind : kind = .linger ∨ kind = .shutdown :=
      h.kinds kind (hidle ▸ List.mem_singleton_self _)
    have hcloses : kind.closes cfg.beast := by rcases hkind with rfl | rfl <;> trivial
    obtain ⟨hnext, hqueued⟩ := closes_of_reaction (s := s) hcloses c
    refine ⟨fun next hmem ↦ ?_, hqueue.trans hqueued, hlaunch⟩
    rw [hkinds] at hmem
    have hclose := hnext next hmem
    cases next with
    | write response =>
      obtain rfl := write_of_reaction hmem
      exact absurd hkind nofun
    | linger => exact Or.inl rfl
    | shutdown => exact Or.inr rfl
    | detect | handshake | header | continueWrite | body => exact absurd hclose id

/-- A response has been written in the step of its handler. -/
theorem mem_log_written {action : Action} {response : HttpResponse} {stopping : Bool}
    (h : .written response stopping ∈ log s action t) :
    ∃ found, action = .handle (.write response) (.success found) ∧ s.stopping = stopping := by
  rcases mem_log h with hbegun | ⟨kind, c, rfl, hfound⟩
  · rcases mem_begun hbegun with ⟨he, -⟩ | ⟨_, he⟩ <;> cases he
  · rcases finding_cases hfound with ⟨_, he⟩ | ⟨_, -, -, he⟩ | ⟨sent, found, rfl, rfl, he⟩
    · cases he
    · cases he
    · obtain ⟨rfl, rfl⟩ := Event.written.inj he
      exact ⟨found, rfl, rfl⟩

section Written

variable {response : HttpResponse} {found : Found}

/-- After a response that keeps the connection the next request is read. -/
theorem log_of_keepAlive (hstep : Control cfg s (.handle (.write response) (.success found)) t)
    (hkeep : response.keepAlive cfg.beast = true) (hstopping : s.stopping = false) :
    log s (.handle (.write response) (.success found)) t = [.written response false, .read] := by
  cases hstep with
  | other hquiet => exact absurd hquiet Bool.false_ne_true
  | reacts hidle _ _ hkinds =>
    have hreaction : reaction cfg s (.write response) (.success found) = .starts .header := by
      rw [reaction, successReaction, hkeep, hstopping]
      rfl
    have hbegun : begun s t = [.read] := by
      rw [begun, hkinds, hidle, hreaction, Reaction.kinds, List.diff_cons, List.diff_nil,
        List.erase_of_not_mem (by simp)]
      rfl
    rw [log, hbegun, finding, hstopping]
    rfl

/-- While the session is stopping it closes the connection. -/
theorem closing_of_stopping
    (hstep : Control cfg s (.handle (.write response) (.success found)) t)
    (hstopping : s.stopping = true) : Closing t := by
  cases hstep with
  | other hquiet => exact absurd hquiet Bool.false_ne_true
  | reacts _ _ hlaunch hkinds hqueue =>
    have hreaction : reaction cfg s (.write response) (.success found) = eofReaction s := by
      rw [reaction, successReaction, hstopping, Bool.not_true, Bool.and_false,
        if_neg Bool.false_ne_true]
    rw [hreaction] at hkinds hqueue
    exact closing_eof hlaunch hkinds hqueue

end Written

/-! ### Runs -/

/-- What every run keeps in which responses keep the connection by themselves. -/
structure Kept (cfg : Config) (x : Session × List Event) : Prop where
  disciplined : Disciplined cfg x
  current : Current cfg.beast x
  /-- No handler told the response to close the connection. -/
  persistent : ∀ request routed stopping, .request request routed stopping ∈ x.2 →
    routed.2.keepAlive cfg.beast = true
  wasStopping : ∀ request routed, .request request routed true ∈ x.2 → x.1.stopping = true
  closing : ∀ response, .written response true ∈ x.2 → Closing x.1
  /-- Unless the session is stopping, the read of the next request follows a response. -/
  followed : ∀ i response request routed wasStopping,
    x.2[i]? = some (.written response false) →
    lastOwed (x.2.take i) = some (.request request routed wasStopping) →
      x.2[i + 1]? = some .read

theorem mem_of_lastOwed {history : List Event} {e : Event} (h : lastOwed history = some e) :
    e ∈ history :=
  (List.mem_filter.1 (List.mem_of_getLast? h)).1

/-- The response that is written keeps the connection, unless the session is stopping. -/
theorem keepAlive_of_current {history : List Event} {response : HttpResponse} {found : Found}
    (hstep : Control cfg s (.handle (.write response) (.success found)) t)
    (h : Kept cfg (s, history)) (hstopping : s.stopping = false) {request : Request}
    {routed : Outcome × HttpResponse} {wasStopping : Bool}
    (hlast : lastOwed history = some (.request request routed wasStopping)) :
    response.keepAlive cfg.beast = true := by
  have hwrite : .write response ∈ s.kinds := by
    cases hstep with
    | other hquiet => exact absurd hquiet Bool.false_ne_true
    | reacts hidle => exact hidle ▸ List.mem_singleton_self _
  have hmem := mem_of_lastOwed hlast
  obtain ⟨e, he, hanswered⟩ := h.current response (Or.inl hwrite)
  obtain rfl := Option.some.inj (he.symm.trans hlast)
  obtain rfl : wasStopping = false := by
    by_contra hne
    rw [Bool.not_eq_false] at hne
    subst hne
    exact Bool.false_ne_true (hstopping.symm.trans (h.wasStopping _ _ hmem))
  have hpersistent := h.persistent _ _ _ hmem
  rcases routed with ⟨- | -, routed⟩
  · exact Option.some.inj hanswered ▸ hpersistent
  · cases hanswered

/-- What follows a written response, step by step. -/
theorem followed_step {action : Action} {history : List Event} (hstep : Control cfg s action t)
    (h : Kept cfg (s, history)) (i : ℕ) (response : HttpResponse) (request : Request)
    (routed : Outcome × HttpResponse) (wasStopping : Bool)
    (hi : (history ++ log s action t)[i]? = some (.written response false))
    (hlast : lastOwed ((history ++ log s action t).take i) =
      some (.request request routed wasStopping)) :
    (history ++ log s action t)[i + 1]? = some .read := by
  rcases Nat.lt_or_ge i history.length with hlt | hge
  · -- an earlier response
    rw [List.getElem?_append_left hlt] at hi
    rw [List.take_append_of_le_length hlt.le] at hlast
    have hnext := h.followed i response request routed wasStopping hi hlast
    obtain ⟨hlength, -⟩ := List.getElem?_eq_some_iff.1 hnext
    rwa [List.getElem?_append_left hlength]
  · rw [List.getElem?_append_right hge] at hi
    obtain ⟨found, rfl, hstopping⟩ := mem_log_written (List.mem_of_getElem? hi)
    -- the response of this step, which is for the request found last
    have hlog : log s (.handle (.write response) (.success found)) t =
        .written response s.stopping :: begun s t := rfl
    obtain rfl : i = history.length := by
      by_contra hne
      obtain ⟨k, hk⟩ : ∃ k, i - history.length = k + 1 := ⟨i - history.length - 1, by omega⟩
      rw [hlog, hk, List.getElem?_cons_succ] at hi
      rcases mem_begun (List.mem_of_getElem? hi) with ⟨he, -⟩ | ⟨_, he⟩ <;> cases he
    rw [List.take_left' rfl] at hlast
    have hkeep : response.keepAlive cfg.beast = true :=
      keepAlive_of_current hstep h hstopping hlast
    rw [log_of_keepAlive hstep hkeep hstopping, List.getElem?_append_right (Nat.le_add_right _ 1),
      Nat.add_sub_cancel_left]
    rfl

/-- **The step lemma**, for routers that leave keep-alive alone. -/
theorem kept_step {env : Env} {ω : Type u} (hcfg : cfg.beast = env.beast)
    (hbeast : env.beast.Lawful) {r : Router env ω} (hr : r.AllHttp (LeavesKeepAlive env.beast))
    {x y : Session × List Event} {action : Action} (h : Kept cfg x) (hrouted : RoutedBy r x action)
    (hstep : (machineWithLog cfg).step x action = some y) : Kept cfg y := by
  have hdisciplined := disciplined_step (hcfg ▸ hbeast) h.disciplined hstep
  obtain ⟨s, history⟩ := x
  obtain ⟨t, history'⟩ := y
  obtain ⟨htaken, hlog⟩ := Machine.logged_step hstep
  dsimp only at htaken hlog
  subst hlog
  have hcontrol : Control cfg s action t :=
    control_step h.disciplined.inv h.disciplined.matched htaken
  have hstopping : s.stopping = true → t.stopping = true :=
    stopping_step h.disciplined.inv h.disciplined.matched htaken
  refine ⟨hdisciplined, current_step hcontrol h.current, ?_, ?_, ?_, ?_⟩
  · intro request routed stopping hmem
    rcases List.mem_append.1 hmem with hmem | hmem
    · exact h.persistent request routed stopping hmem
    · obtain ⟨-, found, rfl, rfl, rfl⟩ := mem_log_request hmem
      obtain ⟨z, hz, hfound⟩ := hrouted found rfl
      rw [hfound, hcfg]
      exact keepAlive_routed hbeast hr _ hz
  · intro request routed hmem
    rcases List.mem_append.1 hmem with hmem | hmem
    · exact hstopping (h.wasStopping request routed hmem)
    · exact hstopping (mem_log_request hmem).1
  · intro response hmem
    rcases List.mem_append.1 hmem with hmem | hmem
    · exact closing_step (h.closing response hmem) hcontrol
    · obtain ⟨found, rfl, hstop⟩ := mem_log_written hmem
      exact closing_of_stopping hcontrol hstop
  · intro i response request routed wasStopping hi hlast
    exact followed_step hcontrol h i response request routed wasStopping hi hlast

/-- **The run lemma.** -/
theorem kept {env : Env} {ω : Type u} (hcfg : cfg.beast = env.beast) (hbeast : env.beast.Lawful)
    {r : Router env ω} (hr : r.AllHttp (LeavesKeepAlive env.beast)) {x : Session × List Event}
    (h : (machineWithLog cfg).ReachableVia (RoutedBy r) x) : Kept cfg x := by
  refine h.invariant (I := Kept cfg) ?_ fun x action y hkept hrouted hstep ↦
    kept_step hcfg hbeast hr hkept hrouted hstep
  intro x hx
  have hdisciplined : Disciplined cfg x :=
    disciplined (hcfg ▸ hbeast) (Machine.Reachable.init hx)
  obtain ⟨s, history⟩ := x
  obtain ⟨hinit, hhistory⟩ := hx
  change s = _ at hinit
  change history = [] at hhistory
  subst hhistory
  refine ⟨hdisciplined, ?_, ?_, ?_, ?_, ?_⟩
  · subst hinit
    rintro response (hmem | hmem) <;> exact absurd hmem List.not_mem_nil
  · exact fun _ _ _ hmem ↦ absurd hmem List.not_mem_nil
  · exact fun _ _ hmem ↦ absurd hmem List.not_mem_nil
  · exact fun _ hmem ↦ absurd hmem List.not_mem_nil
  · exact fun _ _ _ _ _ hi ↦ absurd (List.mem_of_getElem? hi) List.not_mem_nil

/-- **When persistence is honoured.** Behind a router whose functions leave keep-alive alone, a run
honours what its clients asked for exactly if all of them asked to keep the connection or got their
response while the session was stopping. -/
theorem persistence_honoured {env : Env} {ω : Type u} (hcfg : cfg.beast = env.beast)
    (hbeast : env.beast.Lawful) {r : Router env ω} (hr : r.AllHttp (LeavesKeepAlive env.beast))
    {x : Session × List Event} (h : (machineWithLog cfg).ReachableVia (RoutedBy r) x) :
    Honours cfg.beast x ↔ AskedToKeep cfg.beast x.2 := by
  have hkept := kept hcfg hbeast hr h
  constructor
  · intro hhonours i response request routed wasStopping stopping hi hlast
    by_contra hasked
    rw [not_or, Bool.not_eq_true, Bool.not_eq_true] at hasked
    obtain ⟨hclose, rfl⟩ := hasked
    have hread := hkept.followed i response request routed wasStopping hi hlast
    have hquiet := ((hhonours i response request routed wasStopping false hi hlast).1 hclose).2
    have hmem : .read ∈ x.2.drop (i + 1) := by
      refine List.mem_of_getElem? (i := 0) ?_
      rwa [List.getElem?_drop, Nat.add_zero]
    exact Bool.noConfusion (hquiet _ hmem)
  · intro hasked i response request routed wasStopping stopping hi hlast
    have hanswer := hasked i response request routed wasStopping stopping hi hlast
    refine ⟨fun hclose ↦ ?_, fun _ hstopping ↦ ?_⟩
    · rw [hclose] at hanswer
      obtain rfl := hanswer.resolve_left Bool.false_ne_true
      refine ⟨hkept.closing response (List.mem_of_getElem? hi), fun e he ↦ ?_⟩
      obtain ⟨hlt, hget⟩ := List.getElem?_eq_some_iff.1 hi
      have hpairwise := hkept.disciplined.quiet.drop (i := i)
      rw [List.drop_eq_getElem_cons hlt, hget, List.pairwise_cons] at hpairwise
      exact hpairwise.1 e he rfl
    · subst hstopping
      exact hkept.followed i response request routed wasStopping hi hlast

/-- A request, if it is one, asks to keep the connection. -/
def Event.keeps (beast : Beast) : Event → Bool
  | .request asked _ _ => asked.keepAlive beast
  | _ => true

theorem askedToKeep_of_forall {history : List Event} (h : ∀ e ∈ history, e.keeps beast = true) :
    AskedToKeep beast history :=
  fun _ _ _ _ _ _ _ hlast ↦ Or.inl (h _ (List.mem_of_mem_take (mem_of_lastOwed hlast)))

/-- A plain session that answers a request, with the default router. -/
def answersOne (request : Request) : List Action :=
  readsOne {} request ++
    [.task, .complete (.write (asks {} request).routed.2) (.success {}),
      .handle (.write (asks {} request).routed.2) (.success {})]

theorem answersOne_reachable (request : Request) {x : Session × List Event}
    (h : (machineWithLog dual).run ({ stream := .plain }, []) (answersOne request) = some x) :
    (machineWithLog dual).ReachableVia (RoutedBy ({} : Router plainPaths Unit)) x := by
  have hinit : (machineWithLog dual).Init ({ stream := .plain }, []) := ⟨rfl, rfl⟩
  have hrouted : ∀ action ∈ answersOne request, ∀ s t : Session × List Event,
      RoutedBy ({} : Router plainPaths Unit) s action := by
    intro action hmem s _
    rcases List.mem_append.1 hmem with hmem | hmem
    · exact readsOne_routedBy {} request action hmem s
    · rintro found rfl
      simp at hmem
  exact (Machine.ReachableVia.init hinit).run _ (Machine.everyStep_of_forall hrouted _) h

/-- The default router has no functions that change it. -/
theorem leavesKeepAlive_default :
    ({} : Router plainPaths Unit).AllHttp (LeavesKeepAlive plainBeast) where
  globals := by simp
  handlers := by simp
  pre := by simp
  post := by simp
  notFound _ x := keepAlive_send plainBeast_lawful x.response 404 _
  methodNotAllowed _ x := keepAlive_send plainBeast_lawful x.response 405 _

theorem persistence_honoured_kept :
    ∃ x, (machineWithLog dual).run ({ stream := .plain }, []) (answersOne (missing .get [])) =
        some x ∧
      Honours plainBeast x ∧ x.2.getLast? = some .read := by
  have hreachable := answersOne_reachable (missing .get []) rfl
  have hhonours := (persistence_honoured (r := ({} : Router plainPaths Unit)) rfl plainBeast_lawful
    leavesKeepAlive_default hreachable).2 (askedToKeep_of_forall (by decide))
  exact ⟨_, rfl, hhonours, rfl⟩

/-- The client asks to close the connection, and the session waits for its next request. -/
theorem close_ignored :
    ¬∀ (cfg : Config) (x : Session × List Event), cfg.beast.Lawful →
      (machineWithLog cfg).ReachableVia (RoutedBy ({} : Router plainPaths Unit)) x →
        Honours cfg.beast x := by
  intro h
  have hreachable :=
    answersOne_reachable (missing .get [⟨"Connection".toList, "close".toList⟩]) rfl
  have hhonours := h dual _ plainBeast_lawful hreachable 3 _ _ _ false false rfl rfl
  have hquiet := (hhonours.1 rfl).2 .read
  exact Bool.noConfusion (hquiet (by decide))

end CppGate.HttpSession
