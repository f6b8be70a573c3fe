import WindowSurvey.Proofs.Phase.Deeds
import WindowSurvey.Proofs.Phase.Outcomes
import WindowSurvey.Proofs.Survey.RunTasks
/-!
# Switching to a chosen window

A switch to a chosen window takes the place of the last one as a whole or not at all. Its task brings the next
window to the front as often as the chosen one needs, waiting after each time, and stops at the first time that
fails. What is shown while it works, and after a failure, is what was shown before, but for the message. Other
commands may be given meanwhile: as long as nobody leaves the flow or starts it anew, none of them is obeyed.

## Main definitions

* `Navigation.steps` — switches that succeed, each with its wait
* `Navigation.Ends` — the deeds of a plan of switches, and its result
* `Navigation.Settles` — what is shown before and after a switch to a chosen window, judged by its deeds

## Main statements

* `System.run_navigation` — what comes of the command to switch to a window, in every run
-/

namespace WindowSurvey

/-! ## Plans of switches -/

namespace Navigation

/-- So many switches that succeed, each with its wait. -/
def steps (settle : Nat) : Nat → List Deed
  | 0 => []
  | count + 1 => .advance (some (.ok ())) :: .wait settle :: steps settle count

/-- The deeds of a plan of switches, and its result: all of them were made, or one failed, or the plan broke down
in one. -/
inductive Ends (settle count : Nat) : List Deed → Except Failure Unit → Prop
  | whole : Ends settle count (steps settle count) (.ok ())
  | failed {k : Nat} {failure : Failure} (hk : k < count) :
      Ends settle count (steps settle k ++ [.advance (some (.error failure))])
        (.error failure.duringNavigation)
  | broken {k : Nat} {complaint : String} (hk : k < count) :
      Ends settle count (steps settle k ++ [.advance none])
        (.error (.navigation ("navigation task failed: " ++ crashReport complaint)))

variable {settle count : Nat} {ds : List Deed} {result : Except Failure Unit}

/-- A plan of switches that came to its end has made all of them, or the last that was tried failed. -/
theorem does_done (h : (script settle count).Does ds (some (.done result))) :
    Ends settle count ds result := by
  induction count generalizing ds with
  | zero =>
    cases h
    exact .whole
  | succ count ih =>
    cases h with
    | @advance _ answer ds _ h =>
      cases answer with
      | error failure =>
        cases h
        exact .failed (k := 0) (Nat.zero_lt_succ _)
      | ok =>
        cases h with
        | wait h =>
          cases ih h with
          | whole => exact .whole
          | @failed k failure hk => exact .failed (k := k + 1) (Nat.succ_lt_succ hk)
          | @broken k complaint hk => exact .broken (k := k + 1) (Nat.succ_lt_succ hk)

/-- A plan of switches that was left without an answer has made all switches before. -/
theorem does_lost (h : (script settle count).Does ds none) :
    ∃ k < count, ds = steps settle k ++ [.advance none] := by
  induction count generalizing ds with
  | zero => cases h
  | succ count ih =>
    cases h with
    | advanceLost => exact ⟨0, Nat.zero_lt_succ _, rfl⟩
    | @advance _ answer ds _ h =>
      cases answer with
      | error failure => cases h
      | ok =>
        cases h with
        | wait h =>
          obtain ⟨k, hk, rfl⟩ := ih h
          exact ⟨k + 1, Nat.succ_lt_succ hk, rfl⟩

/-- A plan of switches that may take as long as it needs comes to an end or breaks down, if every call is
answered. -/
theorem play_ends {σ : Type} {r : Remote σ} (hr : ∀ s, (r.advance s).1 ≠ .never) (settle count time : Nat)
    (s : σ) : (∃ t result, ((script settle count).play r none time s).1 = .finished t result) ∨
      ∃ t complaint, ((script settle count).play r none time s).1 = .crashed t complaint := by
  induction count generalizing time s with
  | zero => exact .inl ⟨time, _, rfl⟩
  | succ count ih =>
    have hanswer := hr s
    rw [script, Script.play]
    generalize r.advance s = a at hanswer ⊢
    rcases a with ⟨answer | ⟨delay, answer⟩ | _ | complaint, s⟩
    · cases answer with
      | error failure => exact .inl ⟨time, _, rfl⟩
      | ok => exact ih (time + settle) s
    · cases answer with
      | error failure => exact .inl ⟨time + delay, _, rfl⟩
      | ok => exact ih (time + delay + settle) s
    · exact absurd rfl hanswer
    · exact .inr ⟨time, complaint, rfl⟩

end Navigation

/-- What a task that switched to a window brings, judged by what it has done. -/
theorem Task.HasDone.ends {settings : CyclingSettings} {t : Task} {ds : List Deed}
    (h : t.HasDone settings ds) (hfits : t.Fits) {index cycles : Nat}
    (hj : t.job = .navigation index cycles) {time : Nat} {o : Outcome} (he : t.end? = some (time, o)) :
    ∃ result, o = .switched index result ∧ Navigation.Ends settings.settleDelay cycles ds result := by
  have hdone := h.of_end he
  rw [hj] at hdone
  rcases hdone with hdoes | ⟨hdeadline, -⟩ | ⟨hdoes, complaint, rfl⟩
  · obtain ⟨result, hresult, rfl⟩ := hdoes.of_map_done
    exact ⟨result, rfl, Navigation.does_done hresult⟩
  · cases hj.symm.trans (hfits.limited hdeadline)
  · obtain ⟨k, hk, rfl⟩ := Navigation.does_lost hdoes.of_map_none
    exact ⟨_, rfl, .broken hk⟩

/-! ## What is shown -/

/-- What is shown after a switch to a window, when `before` was shown before it: with all its switches made, the
window is the current one; with a switch that failed, there is the message of a failed navigation. Everything else
is as it was. -/
def Navigation.Settles (settle count index : Nat) (before : Snapshot) (ds : List Deed)
    (after : Snapshot) : Prop :=
  (ds = steps settle count ∧
    after = { before with processing := false, currentIndex := index, errorMessage := "" }) ∨
  ∃ k < count, ∃ answer?, answer? ≠ some (.ok ()) ∧ ds = steps settle k ++ [.advance answer?] ∧
    ∃ detail, after = { before with
      processing := false
      errorMessage := (Failure.navigation detail).message }

theorem Failure.exists_duringNavigation (f : Failure) : ∃ detail, f.duringNavigation = .navigation detail := by
  cases f <;> exact ⟨_, rfl⟩

/-- The snapshot after the end of a switch. -/
theorem Navigation.Ends.settles {settle count : Nat} {ds : List Deed} {result : Except Failure Unit}
    (h : Ends settle count ds result) (before : Snapshot) (index : Nat) :
    Settles settle count index before ds
      (Controller.navigatedSnapshot { before with processing := true, errorMessage := "" } index
        result) := by
  cases h with
  | whole => exact .inl ⟨rfl, rfl⟩
  | @failed k failure hk =>
    obtain ⟨detail, hdetail⟩ := failure.exists_duringNavigation
    refine .inr ⟨k, hk, some (.error failure), nofun, rfl, detail, ?_⟩
    rw [hdetail]
    rfl
  | @broken k complaint hk => exact .inr ⟨k, hk, none, nofun, rfl, _, rfl⟩

/-- A switch that may begin is begun. -/
theorem Controller.obey?_of_canNavigate {c : Controller} {index : Nat}
    (h : c.snapshot.canNavigate index = true) :
    ∃ region t, c.snapshot.selected[index]? = some region ∧
      c.obey? (.navigate index) = some (t, some (.navigation index region.cycle)) ∧
      t.after.snapshot = { c.snapshot with processing := true, errorMessage := "" } := by
  obtain ⟨hp, hq, hi⟩ : c.snapshot.phase = .navigating ∧ c.snapshot.processing = false ∧
      index < c.snapshot.selected.length := by
    simpa [Snapshot.canNavigate, and_assoc] using h
  have hregion := List.getElem?_eq_getElem hi
  have hn := navigate?_eq_some.2 ⟨hp, hq, ⟨_, hregion, rfl⟩, rfl⟩
  exact ⟨_, _, hregion, by rw [obey?, hn]; rfl, rfl⟩

/-- A switch that may not begin is ignored. -/
theorem Controller.obey?_of_not_canNavigate {c : Controller} {index : Nat}
    (h : c.snapshot.canNavigate index = false) : c.obey? (.navigate index) = none := by
  rw [obey?, Option.map_eq_none_iff]
  cases hn : c.navigate? index with
  | none => rfl
  | some p =>
    obtain ⟨hp, hq, ⟨region, hregion, -⟩, -⟩ := navigate?_eq_some.1 hn
    have hi := (List.getElem?_eq_some_iff.1 hregion).1
    simp [Snapshot.canNavigate, hp, hq, hi] at h

namespace System

variable {σ : Type} {r : Remote σ} {settings : CyclingSettings} {s : System σ} {f : Flow}

/-- The snapshot after a call has taken notice of an outcome that is still wanted. -/
theorem snapshot_of_ended {id : CallId} {j : Job} {stage : CallStage} {o : Outcome}
    (hp : s.Pending id s.controller.generation j stage) (ho : s.ended? id = some o) :
    (s.apply r settings (.deliver id)).controller.snapshot =
      Controller.finishedSnapshot s.controller.snapshot o := by
  rw [apply, snapshot_reap]
  have hs := deliver_step r settings s id
  generalize s.deliver id = m at hs
  cases hs with
  | conclude hk ht he =>
    cases ho.symm.trans (ended?_eq_some hk ht he)
    rfl
  | @dismiss _ _ g j' task t hk ht hl hg =>
    obtain ⟨rfl, -, -⟩ := hp.unique hk
    rw [ended?_eq hk, ht, Option.bind_some, hg rfl] at ho
    cases ho
  | aside observers next clock held hi hd =>
    cases ho.symm.trans (hd id rfl)

/-! ## The call of a switch -/

/-- A call that was accepted is never refused. -/
theorem call_run (r : Remote σ) (settings : CyclingSettings) {id : CallId} {g : Nat} {j : Job}
    {stage : CallStage} (hp : s.Pending id g j stage) (events : List Event) :
    (∃ stage', (s.run r settings events).Pending id g j stage') ∨
      (s.run r settings events).calls[id]? = some .returned ∨
      (s.run r settings events).calls[id]? = some .abandoned := by
  induction events generalizing s stage with
  | nil => exact .inl ⟨stage, hp⟩
  | cons e events ih =>
    rcases call_apply hp e with ⟨stage', hq, -⟩ | ⟨-, hr, -⟩ | ⟨-, hr⟩
    · exact ih hq
    · exact .inr (.inl ((later_run _ events).settled hr rfl))
    · exact .inr (.inr ((later_run _ events).settled hr rfl))

/-- As long as nobody gives up the awaited work, what is shown stays the same until its caller takes notice of its
end or goes away. -/
theorem Coherent.awaited_run (r : Remote σ) (settings : CyclingSettings) (h : Coherent s f)
    {id : CallId} {j : Job} {stage : CallStage}
    (hp : s.Pending id s.controller.generation j stage) {events : List Event}
    (he : ∀ e ∈ events, e.supersedes = false) :
    (∃ stage', (s.run r settings events).Pending id (s.run r settings events).controller.generation j
        stage' ∧ (s.run r settings events).controller.snapshot = s.controller.snapshot) ∨
      (s.run r settings events).calls[id]? = some .returned ∨
      (s.run r settings events).calls[id]? = some .abandoned := by
  induction events generalizing s f stage with
  | nil => exact .inl ⟨stage, hp, rfl⟩
  | cons e events ih =>
    obtain ⟨hfirst, hothers⟩ := List.forall_mem_cons.1 he
    rcases h.awaited_step hp hfirst with ⟨-, stage', hq⟩ | ⟨-, hr⟩ | ⟨-, hr⟩
    · have hsame : (s.apply r settings e).controller.snapshot = s.controller.snapshot := by
        have hagrees : Agrees s (s.apply r settings e) f (s.stimulus e) := h.follows.apply h.matched e
        have hfollows := hagrees.follows.snapshot
        rw [Flow.after, h.react?_eq_none hp hfirst hq, Option.getD_none, h.follows.snapshot] at hfollows
        exact hfollows.symm
      rw [run_cons, ← hsame]
      exact ih (h.apply e) hq hothers
    · exact .inr (.inl ((later_run _ events).settled hr rfl))
    · exact .inr (.inr ((later_run _ events).settled hr rfl))

/-- A call whose task is at rest returns when it takes notice of that. -/
theorem returned_of_rest {id : CallId} {g : Nat} {j : Job} {task : TaskId} {t : Task}
    (hp : s.Pending id g j (.waiting task)) (ht : s.tasks[task]? = some t) (hl : t.isLive = false) :
    (s.apply r settings (.deliver id)).calls[id]? = some .returned := by
  have hcall : s.calls[id]? = some (.pending g j (.waiting task)) := hp
  cases he : t.end? with
  | some end' => exact returned_of_ended (ended?_eq_some hp ht he)
  | none =>
    have hstopped : t.isStopped = true := by simpa [Task.isLive, he] using hl
    rw [apply, calls_reap, deliver]
    simp only [hcall, ht, he, hstopped, if_true]
    exact getElem?_setCall_self hcall _

/-- A command that was just accepted returns when its task has one turn that is long enough, and nobody else does
anything. -/
theorem returned_of_turn {id : CallId} {g : Nat} {j : Job} (hm : s.Matched)
    (hp : s.Pending id g j .accepted) (hg : s.controller.generation = g)
    (hturn : ((Task.begin settings s.clock g j).work r settings none s.remote).1.isLive = false) :
    (s.run r settings [.spawn id, .track id, .work s.tasks.length none, .deliver id]).calls[id]? =
      some .returned := by
  let begun : System σ := { s.setCall id (.pending g j (.spawned s.tasks.length)) with
    tasks := s.tasks ++ [.begin settings s.clock g j] }
  have hcall : s.calls[id]? = some (.pending g j .accepted) := hp
  have hspawn : s.apply r settings (.spawn id) = begun := by
    simp only [apply, hcall]
    rfl
  have hbegun : begun.calls[id]? = some (.pending g j (.spawned s.tasks.length)) :=
    getElem?_setCall_self hcall _
  let waiting : System σ := { begun.setCall id (.pending g j (.waiting s.tasks.length)) with
    controller := { s.controller with inFlight := some s.tasks.length } }
  have htrack : begun.apply r settings (.track id) = waiting := by
    have hcontroller : begun.controller = s.controller := rfl
    simp only [apply, hbegun, hcontroller, Controller.track_of_eq hg]
    rfl
  have hwaiting : waiting.Pending id g j (.waiting s.tasks.length) := getElem?_setCall_self hbegun _
  have htask : waiting.tasks[s.tasks.length]? = some (.begin settings s.clock g j) :=
    List.getElem?_concat_length
  have hreported : waiting.hasReported s.tasks.length = true := by
    refine hasReported_of_waiting ?_ hwaiting
    rw [← htrack, ← hspawn]
    exact (hm.apply _).apply _
  let worked : System σ := { waiting with
    tasks := waiting.tasks.set s.tasks.length
      ((Task.begin settings s.clock g j).work r settings none s.remote).1
    remote := ((Task.begin settings s.clock g j).work r settings none s.remote).2 }
  have hwork : waiting.apply r settings (.work s.tasks.length none) = worked := by
    simp only [apply, htask, hreported, Bool.or_true, if_true]
    rfl
  have hrun : s.run r settings [.spawn id, .track id, .work s.tasks.length none, .deliver id] =
      worked.apply r settings (.deliver id) := by
    rw [run_cons, hspawn, run_cons, htrack, run_cons, hwork]
    rfl
  have hended : worked.tasks[s.tasks.length]? =
      some ((Task.begin settings s.clock g j).work r settings none s.remote).1 :=
    List.getElem?_set_self (List.getElem?_eq_some_iff.1 htask).1
  rw [hrun]
  exact returned_of_rest (s := worked) hwaiting hended hturn

/-- The task of a switch comes to rest in one turn, if every call is answered. -/
theorem work_navigation_rest (hr : ∀ s, (r.advance s).1 ≠ .never) (settings : CyclingSettings)
    (now generation index cycles : Nat) (remote : σ) :
    ((Task.begin settings now generation (.navigation index cycles)).work r settings none
      remote).1.isLive = false := by
  rw [Task.work_begin, Job.script, Script.play_map]
  rcases Navigation.play_ends hr settings.settleDelay cycles now remote with
    ⟨t, result, h⟩ | ⟨t, complaint, h⟩
  · simp only [Job.deadline?, h]
    rfl
  · simp only [Job.deadline?, h]
    rfl

/-! ## The command to switch -/

theorem apply_navigate_of_not_can {index : Nat} (h : s.controller.snapshot.canNavigate index = false) :
    s.apply r settings (.issue (.navigate index)) = s.addCall .refused := by
  rw [apply, issue_eq, Controller.obey?_of_not_canNavigate h]
  rfl

theorem apply_navigate_of_can (r : Remote σ) (settings : CyclingSettings) {index : Nat}
    (h : s.controller.snapshot.canNavigate index = true) :
    let m := s.apply r settings (.issue (.navigate index))
    ∃ region, s.controller.snapshot.selected[index]? = some region ∧
      m.Pending s.calls.length m.controller.generation (.navigation index region.cycle) .accepted ∧
      m.controller.snapshot =
        { s.controller.snapshot with processing := true, errorMessage := "" } := by
  intro m
  obtain ⟨region, t, hregion, ho, hsnapshot⟩ := Controller.obey?_of_canNavigate h
  have haccept : m = s.accept t (.navigation index region.cycle) := by
    show s.issue (.navigate index) = _
    rw [issue_eq, ho]
  refine ⟨region, hregion, ?_, ?_⟩
  · rw [haccept, controller_accept]
    exact pending_accept.2 (.inr ⟨rfl, rfl, rfl, rfl⟩)
  · rw [haccept, controller_accept]
    exact hsnapshot

/-- What is shown when the caller of a switch takes notice of its end. -/
theorem settles_of_ended (h : Coherent s f) {log : List (TaskId × Deed)}
    (hlog : Recorded settings s.tasks log) {before : Snapshot} {id : CallId} {index cycles : Nat}
    {task : TaskId} (hp : s.Pending id s.controller.generation (.navigation index cycles) (.waiting task))
    (hshown : s.controller.snapshot = { before with processing := true, errorMessage := "" })
    (hended : (s.ended? id).isSome) :
    Navigation.Settles settings.settleDelay cycles index before (deedsOf task log)
      (s.apply r settings (.deliver id)).controller.snapshot := by
  obtain ⟨o, ho⟩ := Option.isSome_iff_exists.1 hended
  obtain ⟨g, j, task', t, time, hq, ht, he⟩ := exists_pending_of_ended ho
  obtain ⟨rfl, rfl, hstage⟩ := hp.unique hq
  cases hstage
  obtain ⟨t', ht', -, hjob⟩ := h.matched.begun hp rfl
  cases ht.symm.trans ht'
  obtain ⟨result, rfl, hends⟩ := (hlog.hasDone ht).ends (h.matched.fits ht) hjob he
  rw [snapshot_of_ended hp ho, hshown]
  exact hends.settles before index

/-- The command to switch to a window, given at any time in any run. It is obeyed exactly when the window can be
switched to; otherwise its caller is told so and nothing else changes. Once obeyed, it is never answered as if it
were not, and it is answered when its task is at rest, which is soon if every call is answered. As long as nobody
leaves the flow or starts it anew, only the message and the mark of work change until then. At the end all its
switches were made and the window is the current one, or the last one that was tried failed and everything but
the message is as it was before. -/
theorem run_navigation {σ : Type} (r : Remote σ) (settings : CyclingSettings) (remote : σ)
    (eager : Bool) (before : List Event) (index : Nat) :
    let start : System σ := { remote, eager }
    let s := start.run r settings before
    let id := s.calls.length
    let m := s.apply r settings (.issue (.navigate index))
    (s.controller.snapshot.canNavigate index = false →
      m = s.addCall .refused ∧ m.answer? id = some false) ∧
    (s.controller.snapshot.canNavigate index = true →
      ((∀ t, (r.advance t).1 ≠ .never) → (m.run r settings
        [.spawn id, .track id, .work m.tasks.length none, .deliver id]).answer? id = some true) ∧
      ∃ region, s.controller.snapshot.selected[index]? = some region ∧ ∀ after,
        let u := m.run r settings after
        let v := u.apply r settings (.deliver id)
        u.answer? id ≠ some false ∧
        ∀ g j stage, u.Pending id g j stage →
          (∀ task t, stage = .waiting task → u.tasks[task]? = some t → t.isLive = false →
            v.answer? id = some true) ∧
          ((∀ e ∈ after, e.supersedes = false) →
            u.controller.snapshot =
              { s.controller.snapshot with processing := true, errorMessage := "" } ∧
            ∀ task, stage = .waiting task → (u.ended? id).isSome →
              Navigation.Settles settings.settleDelay region.cycle index s.controller.snapshot
                (deedsOf task (start.deeds r settings (before ++ .issue (.navigate index) :: after)))
                v.controller.snapshot)) := by
  intro start s id m
  have hs := (Coherent.init remote eager).run r settings before
  have hm : Coherent m _ := hs.apply (.issue (.navigate index))
  have htold {u : System σ} (hr : u.calls[id]? = some .returned) : u.answer? id = some true := by
    rw [answer?, hr]
    rfl
  constructor
  · intro hcan
    have hrefused : m = s.addCall .refused := apply_navigate_of_not_can hcan
    refine ⟨hrefused, ?_⟩
    rw [hrefused, answer?, calls_addCall, List.getElem?_concat_length]
    rfl
  · intro hcan
    obtain ⟨region, hregion, hp, hshown⟩ := apply_navigate_of_can r settings hcan
    refine ⟨fun hr => htold (returned_of_turn hm.matched hp rfl
      (work_navigation_rest hr settings _ _ _ _ _)), region, hregion, ?_⟩
    intro after u v
    refine ⟨?_, ?_⟩
    · rcases call_run r settings hp after with ⟨stage, hq⟩ | hr | hr
      · rw [answer?, hq]
        intro h
        cases h
      · rw [htold hr]
        intro h
        cases h
      · rw [answer?, hr]
        intro h
        cases h
    intro g j stage hq
    refine ⟨?_, fun hafter => ?_⟩
    · rintro task t rfl ht hl
      exact htold (returned_of_rest hq ht hl)
    · rcases hm.awaited_run r settings hp hafter with
        ⟨stage', hcurrent, hsame⟩ | hr | hr
      · refine ⟨hsame.trans hshown, ?_⟩
        rintro task rfl hended
        obtain ⟨-, rfl, rfl⟩ := hcurrent.unique hq
        have hlog := (Recorded.init settings).run (s := start) (r := r)
          (before ++ .issue (.navigate index) :: after)
        rw [run_append, run_cons, List.nil_append] at hlog
        exact settles_of_ended (hm.run r settings after) hlog hcurrent (hsame.trans hshown) hended
      · cases hr.symm.trans hq
      · cases hr.symm.trans hq

/-! ### A switch that fails half way -/

namespace HalfWay

/-- A window that is two switches away. -/
def far : Region := ⟨⟨0.0, 0.0, 300.0, 200.0⟩, 2, #[1], .large⟩

/-- Partners who find a window, and who fail when they are asked for the next window a second time. -/
def rehearsal : Rehearsal where
  captures := [.now (.ok (some Rehearsal.blankFrame))]
  switching := .steps [.now (.ok ()), .now (.error Rehearsal.refusal)]
  regions := [(0, [far])]

def oneRound : CyclingSettings := { maxAttempts := 1 }

/-- From the start up to the report of the detection run. -/
def opening : List Event := [.issue .start, .spawn 0, .track 0]

/-- The window is picked. -/
def picking : List Event := [.deliver 0, .issue (.select [far])]

/-- The task of the switch works. -/
def switching : List Event := [.spawn 1, .track 1, .work 1 none]

/-- What comes of the detection run. -/
def found : Task :=
  ⟨1, .detection, some 180000, .working (.finished 0 (.detected (.ok [far.withCycle 0])))⟩

/-- The state in which the window has just been picked. -/
def picked : System Rehearsal.Stage :=
  System.run rehearsal.remote oneRound
    { System.run rehearsal.remote oneRound { remote := {} } opening with
      tasks := [found], remote := { captures := 1 } } picking

theorem run_picked :
    System.run rehearsal.remote oneRound { remote := {} } (opening ++ .work 0 none :: picking) =
      picked := by
  have hplay : (Job.detection.script oneRound).play rehearsal.remote (some 180000) 0 {} =
      (.finished 0 (.detected (.ok [far.withCycle 0])), { captures := 1 }) := by
    show (Progress.finished 0
      (Outcome.detected (.ok (Roster.empty.insertAll [far.withCycle 0]).2.finish)), _) = _
    rw [Roster.finish_singleton (by decide)]
  have hwork : (Task.begin oneRound 0 1 .detection).work rehearsal.remote oneRound none {} =
      (found, { captures := 1 }) := by
    rw [Task.work_begin]
    show ((⟨1, .detection, some 180000, .working (Task.expire oneRound (some 180000) none
      ((Job.detection.script oneRound).play rehearsal.remote (some 180000) 0 {}).1)⟩ : Task),
      ((Job.detection.script oneRound).play rehearsal.remote (some 180000) 0 {}).2) = _
    rw [hplay]
    rfl
  have happly : (System.run rehearsal.remote oneRound { remote := {} } opening).apply rehearsal.remote
      oneRound (.work 0 none) = { System.run rehearsal.remote oneRound { remote := {} } opening with
        tasks := [found], remote := { captures := 1 } } := by
    show { System.run rehearsal.remote oneRound { remote := {} } opening with
      tasks := [((Task.begin oneRound 0 1 .detection).work rehearsal.remote oneRound none {}).1]
      remote := ((Task.begin oneRound 0 1 .detection).work rehearsal.remote oneRound none {}).2 } = _
    rw [hwork]
  rw [run_append, run_cons, happly]
  rfl

end HalfWay

/-- The second of two switches fails: the window that was picked stays the current one, and there is a message. -/
theorem run_navigation_half_way :
    let s := System.run HalfWay.rehearsal.remote HalfWay.oneRound { remote := {} }
      (HalfWay.opening ++ .work 0 none :: HalfWay.picking)
    let u := (s.apply HalfWay.rehearsal.remote HalfWay.oneRound (.issue (.navigate 0))).run
      HalfWay.rehearsal.remote HalfWay.oneRound HalfWay.switching
    let v := u.apply HalfWay.rehearsal.remote HalfWay.oneRound (.deliver 1)
    s.controller.snapshot.canNavigate 0 = true ∧ (u.ended? 1).isSome ∧ v.answer? 1 = some true ∧
      ∃ detail, v.controller.snapshot = { s.controller.snapshot with
        processing := false
        errorMessage := (Failure.navigation detail).message } := by
  intro s u v
  have hs : s = HalfWay.picked := HalfWay.run_picked
  have hcan : s.controller.snapshot.canNavigate 0 = true := by
    rw [hs]
    rfl
  have hu : u = (HalfWay.picked.apply HalfWay.rehearsal.remote HalfWay.oneRound
      (.issue (.navigate 0))).run HalfWay.rehearsal.remote HalfWay.oneRound HalfWay.switching := by
    rw [← hs]
  have hwaiting : u.Pending 1 2 (.navigation 0 2) (.waiting 1) := by
    rw [hu]
    rfl
  have hended : (u.ended? 1).isSome := by
    rw [hu]
    rfl
  have hreturned : v.answer? 1 = some true := by
    show (u.apply _ _ (.deliver 1)).answer? 1 = _
    rw [hu]
    rfl
  have hdeeds : deedsOf 1 (System.deeds HalfWay.rehearsal.remote HalfWay.oneRound { remote := {} }
      ((HalfWay.opening ++ .work 0 none :: HalfWay.picking) ++ .issue (.navigate 0) :: HalfWay.switching)) =
        Navigation.steps 2500 1 ++ [.advance (some (.error Rehearsal.refusal))] := by
    have hfirst : deedsOf 1 (System.deeds HalfWay.rehearsal.remote HalfWay.oneRound { remote := {} }
        (HalfWay.opening ++ .work 0 none :: HalfWay.picking)) = [] := rfl
    rw [deeds_append, deedsOf_append, hfirst, HalfWay.run_picked]
    rfl
  have hid : s.calls.length = 1 := by
    rw [hs]
    rfl
  have hnavigation := run_navigation HalfWay.rehearsal.remote HalfWay.oneRound {} false
    (HalfWay.opening ++ .work 0 none :: HalfWay.picking) 0
  dsimp only at hnavigation
  rw [hid] at hnavigation
  obtain ⟨-, region, hregion, hafter⟩ := hnavigation.2 hcan
  obtain ⟨-, hsettles⟩ := ((hafter HalfWay.switching).2 _ _ _ hwaiting).2 (by decide)
  refine ⟨hcan, hended, hreturned, ?_⟩
  have hshown := hsettles 1 rfl hended
  rw [hdeeds] at hshown
  rcases hshown with ⟨hwhole, -⟩ | ⟨k, -, answer?, -, -, hdetail⟩
  · -- the last thing that is done is a switch, and no wait follows it
    rw [HalfWay.run_picked] at hregion
    cases hregion
    cases hwhole
  · exact hdetail

end System

end WindowSurvey
