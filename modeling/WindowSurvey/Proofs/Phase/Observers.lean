import WindowSurvey.Proofs.Phase.Refinement
/-!
# Observers hear of every change

Observers come and go while commands are given and work ends. A change is told to those who watch at that moment,
and to each of them once; nothing else is told. So what an observer has heard is the series of the changes since
it began to watch, each as it was right after it was made. A change and its telling are one step: who watches
is read when the change is told.

The changes of a run are written down from the events alone: a command that is obeyed, or a call that takes
notice of an outcome which is still wanted. That these are the events after which the state is another is a
theorem, and it needs the table: an outcome is wanted only while the snapshot says that work is going on.

## Main definitions

* `System.alters`, `System.changes` — the events that change the state, and the snapshots right after them
* `System.heard` — what an observer has been told so far
* `System.Enrolled` — every observer watches once, under a number that was given

## Main statements

* `System.notes_apply`, `System.alters_iff` — what one event tells, and that it tells of changes only
* `System.heard_run`, `System.heard_run_of_gone` — what an observer hears in a run
* `System.observers_hear_changes` — everything together
-/

namespace WindowSurvey

/-! ## Transitions -/

namespace Controller

variable {c : Controller} {command : Command} {t : Transition}

/-- Who watches, and the number that comes next. -/
def watchers (c : Controller) : List ObserverId × ObserverId := (c.observers, c.nextObserver)

/-- Commands do not concern those who watch. -/
theorem watchers_obey? {j : Option Job} (h : c.obey? command = some (t, j)) :
    t.after.watchers = c.watchers := by
  cases j with
  | none =>
    rcases obey?_ends h with ⟨-, rfl⟩ | ⟨_, -, -, rfl⟩
    · rfl
    · rfl
  | some j =>
    rcases obey?_begins h with ⟨rfl, -, -⟩ | ⟨_, _, -, -, -, -, -, rfl⟩
    · rfl
    · rfl

theorem watchers_track (c : Controller) (g : Nat) (task : TaskId) :
    (c.track g task).after.watchers = c.watchers := by
  rw [track]
  split
  · rfl
  · rfl

/-- A selection that was confirmed is over. -/
theorem pickedSnapshot_phase_ne (s : Snapshot) (regions : List Region) :
    (pickedSnapshot s regions).phase ≠ .selecting := by
  rw [pickedSnapshot]
  split
  · exact Phase.noConfusion
  · exact Phase.noConfusion

/-- A command that is obeyed changes the state. -/
theorem ne_of_obey? {j : Option Job} (h : c.obey? command = some (t, j)) :
    t.after.generation ≠ c.generation ∨ t.after.snapshot ≠ c.snapshot := by
  cases j with
  | none =>
    rcases obey?_ends h with ⟨-, rfl⟩ | ⟨regions, -, hp, rfl⟩
    · exact .inl (Nat.succ_ne_self _)
    · refine .inr fun e => pickedSnapshot_phase_ne c.snapshot regions ?_
      exact (congrArg Snapshot.phase e).trans hp
  | some j =>
    rcases obey?_begins h with ⟨rfl, -, -⟩ | ⟨_, _, -, -, -, -, -, rfl⟩
    · exact .inl (Nat.succ_ne_self _)
    · exact .inl (Nat.succ_ne_self _)

end Controller

namespace System

variable {σ : Type} {r : Remote σ} {settings : CyclingSettings} {s m : System σ} {f : Flow}
  {id : ObserverId}

/-! ## Changes -/

/-- Whether an event changes the state: a command that is obeyed, or the end of work that is still wanted. -/
def alters (s : System σ) : Event → Bool
  | .issue command => (s.controller.obey? command).isSome
  | .deliver call =>
    match s.calls[call]? with
    | some (.pending generation _ _) =>
      generation == s.controller.generation && (s.ended? call).isSome
    | _ => false
  | _ => false

/-- The snapshots right after the changes of a run. -/
def changes (r : Remote σ) (settings : CyclingSettings) (s : System σ) : List Event → List Snapshot
  | [] => []
  | e :: events =>
    let m := s.apply r settings e
    if s.alters e then m.controller.snapshot :: m.changes r settings events
    else m.changes r settings events

theorem alters_deliver {call : CallId} {g : Nat} {j : Job} {stage : CallStage}
    (h : s.Pending call g j stage) :
    s.alters (.deliver call) = (g == s.controller.generation && (s.ended? call).isSome) := by
  have hc : s.calls[call]? = some (.pending g j stage) := h
  simp only [alters, hc]

/-- The state is another: work that was going on is out of date, or the snapshot shows something else. -/
def Differs (s m : System σ) : Prop :=
  m.controller.generation ≠ s.controller.generation ∨ m.controller.snapshot ≠ s.controller.snapshot

/-- A call that waits for work of this generation takes notice of its end. -/
def Concludes (s m : System σ) : Prop :=
  ∃ call j stage o, s.Pending call s.controller.generation j stage ∧
    m.controller.snapshot = Controller.finishedSnapshot s.controller.snapshot o

/-- What a step tells: of a change everybody who watches, and otherwise nobody. -/
structure Tells (s m : System σ) (e : Event) : Prop where
  notes : m.notes = s.notes ++
    if s.alters e then s.controller.observers.map (·, m.controller.snapshot) else []
  idle : s.alters e = false → m.controller.generation = s.controller.generation ∧
    m.controller.snapshot = s.controller.snapshot
  busy : s.alters e = true → s.Differs m ∨ s.Concludes m

namespace Tells

theorem quiet {e : Event} (he : s.alters e = false) (hn : m.notes = s.notes)
    (hg : m.controller.generation = s.controller.generation)
    (hs : m.controller.snapshot = s.controller.snapshot) : Tells s m e where
  notes := by simp [he, hn]
  idle _ := ⟨hg, hs⟩
  busy h := by
    rw [he] at h
    cases h

theorem loud {e : Event} (he : s.alters e = true)
    (hn : m.notes = s.notes ++ s.controller.observers.map (·, m.controller.snapshot))
    (hm : s.Differs m ∨ s.Concludes m) : Tells s m e where
  notes := by simp [he, hn]
  idle h := by
    rw [he] at h
    cases h
  busy _ := hm

theorem reap {e : Event} (h : Tells s m e) : Tells s m.reap e := by
  rcases reap_cases m with hm | ⟨-, hm⟩
  · rw [hm]
    exact h
  · rw [hm]
    refine ⟨?_, ?_, ?_⟩
    · rw [notes_adopt, controller_adopt]
      exact h.notes
    · rw [controller_adopt]
      exact h.idle
    · rw [Differs, Concludes, controller_adopt]
      exact h.busy

theorem step {e : Event} (hs : Step r settings e s m) : Tells s m e := by
  have told {t : Transition} {j : Option Job} {command : Command}
      (h : s.controller.obey? command = some (t, j)) :
      t.after.notes = s.controller.observers.map (·, t.after.snapshot) := by
    have hw : t.after.observers = s.controller.observers := congrArg Prod.fst (Controller.watchers_obey? h)
    rw [Controller.notes, hw]
  cases hs with
  | accept h =>
    refine loud (by simp [alters, h]) ?_ (.inl ?_)
    · rw [notes_accept, controller_accept, told h]
    · rw [Differs, controller_accept]
      exact Controller.ne_of_obey? h
  | perform h =>
    refine loud (by simp [alters, h]) ?_ (.inl ?_)
    · rw [notes_perform, controller_perform, told h]
    · rw [Differs, controller_perform]
      exact Controller.ne_of_obey? h
  | refuse h =>
    exact quiet (by simp [alters, h]) notes_refuse (by rw [controller_refuse]) (by rw [controller_refuse])
  | spawn h => exact quiet rfl rfl rfl rfl
  | track h =>
    refine quiet rfl (notes_adopt s _) ?_ ?_
    · rw [controller_setCall, controller_adopt, Controller.generation_track]
    · rw [controller_setCall, controller_adopt, Controller.snapshot_track]
  | work h => exact quiet rfl rfl rfl rfl
  | conclude h ht he =>
    refine loud ?_ (notes_perform s _) (.inr ⟨_, _, _, _, h, rfl⟩)
    rw [alters_deliver h, ended?_eq_some h ht he]
    simp
  | @dismiss _ call g j task t h ht hl hg =>
    refine quiet ?_ rfl rfl rfl
    rw [alters_deliver h, ended?_eq h, ht, Option.bind_some]
    by_cases hcurrent : g = s.controller.generation
    · simp [hg hcurrent]
    · simp [hcurrent]
  | abandon h => exact quiet rfl rfl rfl rfl
  | @aside _ e observers next clock held hi hd =>
    refine quiet ?_ rfl rfl rfl
    cases e with
    | issue command => exact absurd rfl (hi command)
    | deliver call =>
      rw [alters]
      split
      · simp [hd call rfl]
      · rfl
    | _ => rfl

theorem apply (r : Remote σ) (settings : CyclingSettings) (s : System σ) (e : Event) :
    Tells s (s.apply r settings e) e :=
  apply_of_step step reap

end Tells

/-- The state is another after an outcome that is still wanted: work was going on, and is not any longer. -/
theorem ne_of_conclude (hc : Coherent s f) {call : CallId} {j : Job} {stage : CallStage}
    (h : s.Pending call s.controller.generation j stage) (o : Outcome) :
    Controller.finishedSnapshot s.controller.snapshot o ≠ s.controller.snapshot := by
  intro e
  have hawaited := (hc.follows.awaited h j.work).2 ⟨rfl, rfl⟩
  have hbusy := hc.sound.processing_iff.2 ⟨call, j.work, hawaited⟩
  rw [hc.follows.snapshot, ← e, Controller.finishedSnapshot_processing] at hbusy
  cases hbusy

/-- The events that count as changes are those after which the state is another. -/
theorem alters_iff (hc : Coherent s f) (e : Event) :
    s.alters e = true ↔ s.Differs (s.apply r settings e) := by
  have htells := Tells.apply r settings s e
  constructor
  · intro he
    rcases htells.busy he with h | ⟨call, j, stage, o, hp, hs⟩
    · exact h
    · refine .inr fun hsame => ne_of_conclude hc hp o ?_
      exact hs.symm.trans hsame
  · intro hne
    cases he : s.alters e with
    | true => rfl
    | false =>
      obtain ⟨hg, hs⟩ := htells.idle he
      exact (hne.elim (fun h => h hg) fun h => h hs).elim

/-! ## Who watches -/

theorem watchers_reap (s : System σ) : s.reap.controller.watchers = s.controller.watchers := by
  rcases reap_cases s with h | ⟨-, h⟩
  · rw [h]
  · rw [h, controller_adopt]
    rfl

theorem watchers_issue (s : System σ) (command : Command) :
    (s.issue command).controller.watchers = s.controller.watchers := by
  rw [issue_eq]
  split
  next t j h => rw [controller_accept, Controller.watchers_obey? h]
  next t h => rw [controller_perform, Controller.watchers_obey? h]
  next => rw [controller_refuse]

theorem watchers_deliver (s : System σ) (call : CallId) :
    (s.deliver call).controller.watchers = s.controller.watchers := by
  rw [deliver]
  split
  · split
    · split
      · split
        next h =>
          obtain ⟨-, rfl⟩ := Controller.finish?_eq_some.1 h
          rw [controller_setCall, controller_perform]
          rfl
        next => rfl
      · split <;> rfl
    · rfl
  · rfl

/-- Those who watch change by beginning and by stopping to watch, and in no other way. -/
theorem watchers_apply (r : Remote σ) (settings : CyclingSettings) (s : System σ) (e : Event) :
    (s.apply r settings e).controller.watchers = match e with
      | .subscribe => s.controller.subscribe.2.watchers
      | .unsubscribe id => (s.controller.unsubscribe id).2.watchers
      | _ => s.controller.watchers := by
  cases e with
  | issue command => exact watchers_issue s command
  | spawn call =>
    simp only [apply]
    split <;> rfl
  | track call =>
    simp only [apply]
    split
    · rw [controller_setCall, controller_adopt, Controller.watchers_track]
    · rfl
  | work task horizon =>
    simp only [apply]
    split
    · split <;> rfl
    · rfl
  | deliver call => exact (watchers_reap _).trans (watchers_deliver s call)
  | abandon call =>
    simp only [apply]
    split
    · exact watchers_reap _
    · rfl
  | subscribe => rfl
  | unsubscribe id => rfl
  | pass milliseconds => rfl
  | release => exact watchers_reap _

/-- Who watches after an event: those who begin now, and those who do not stop. -/
theorem mem_observers_apply (r : Remote σ) (settings : CyclingSettings) (s : System σ) (e : Event) :
    id ∈ (s.apply r settings e).controller.observers ↔
      (e = .subscribe ∧ id = s.controller.nextObserver) ∨
        (id ∈ s.controller.observers ∧ e ≠ .unsubscribe id) := by
  have hw : (s.apply r settings e).controller.observers = _ :=
    congrArg Prod.fst (watchers_apply r settings s e)
  rw [hw]
  cases e with
  | subscribe => simp [Controller.watchers, Controller.subscribe, or_comm]
  | unsubscribe gone => simp [Controller.watchers, Controller.unsubscribe, @eq_comm _ gone id]
  | _ => simp [Controller.watchers]

/-- Numbers only grow. -/
theorem nextObserver_le_apply (r : Remote σ) (settings : CyclingSettings) (s : System σ) (e : Event) :
    s.controller.nextObserver ≤ (s.apply r settings e).controller.nextObserver := by
  have hw : (s.apply r settings e).controller.nextObserver = _ :=
    congrArg Prod.snd (watchers_apply r settings s e)
  rw [hw]
  cases e with
  | subscribe => exact Nat.le_succ _
  | _ => exact Nat.le_refl _

theorem nextObserver_le_run (r : Remote σ) (settings : CyclingSettings) (s : System σ)
    (events : List Event) :
    s.controller.nextObserver ≤ (s.run r settings events).controller.nextObserver := by
  induction events generalizing s with
  | nil => exact Nat.le_refl _
  | cons e events ih => exact Nat.le_trans (nextObserver_le_apply r settings s e) (ih _)

/-- Every observer watches once, and under a number that was given; nobody else was ever told anything. -/
structure Enrolled (s : System σ) : Prop where
  nodup : s.controller.observers.Nodup
  lt : ∀ {id : ObserverId}, id ∈ s.controller.observers → id < s.controller.nextObserver
  told : ∀ {note : ObserverId × Snapshot}, note ∈ s.notes → note.1 < s.controller.nextObserver

namespace Enrolled

theorem init (remote : σ) (eager : Bool) : Enrolled { remote, eager } where
  nodup := List.nodup_nil
  lt h := by cases h
  told h := by cases h

theorem apply (h : s.Enrolled) (e : Event) : (s.apply r settings e).Enrolled where
  nodup := by
    have hw : (s.apply r settings e).controller.observers = _ :=
      congrArg Prod.fst (watchers_apply r settings s e)
    rw [hw]
    cases e with
    | subscribe =>
      have hsingle : [s.controller.nextObserver].Nodup :=
        List.nodup_cons.2 ⟨List.not_mem_nil, List.nodup_nil⟩
      refine List.nodup_append.2 ⟨h.nodup, hsingle, fun a ha b hb => ?_⟩
      rw [List.mem_singleton.1 hb]
      exact Nat.ne_of_lt (h.lt ha)
    | unsubscribe id => exact h.nodup.filter _
    | _ => exact h.nodup
  lt {id} hid := by
    rcases (mem_observers_apply r settings s e).1 hid with ⟨rfl, rfl⟩ | ⟨hid, -⟩
    · exact Nat.lt_succ_self _
    · exact Nat.lt_of_lt_of_le (h.lt hid) (nextObserver_le_apply r settings s e)
  told {note} hnote := by
    refine Nat.lt_of_lt_of_le ?_ (nextObserver_le_apply r settings s e)
    rw [(Tells.apply r settings s e).notes, List.mem_append] at hnote
    rcases hnote with hnote | hnote
    · exact h.told hnote
    · split at hnote
      · obtain ⟨id, hid, rfl⟩ := List.mem_map.1 hnote
        exact h.lt hid
      · cases hnote

theorem run (h : s.Enrolled) (events : List Event) : (s.run r settings events).Enrolled := by
  induction events generalizing s with
  | nil => exact h
  | cons e events ih => exact ih (h.apply e)

end Enrolled

/-! ## What an observer hears -/

/-- What an observer has been told so far. -/
def heard (s : System σ) (id : ObserverId) : List Snapshot :=
  (s.notes.filter fun note => note.1 == id).map (·.2)

/-- Of those who are told, an observer who watches is one, and once. -/
theorem filter_told {observers : List ObserverId} (h : observers.Nodup) (id : ObserverId)
    (snapshot : Snapshot) :
    (((observers.map (·, snapshot)).filter fun note => note.1 == id).map (·.2)) =
      if id ∈ observers then [snapshot] else [] := by
  induction observers with
  | nil => rfl
  | cons first rest ih =>
    obtain ⟨hfirst, hrest⟩ := List.nodup_cons.1 h
    rw [List.map_cons, List.filter_cons]
    by_cases hid : first = id
    · subst hid
      have hnone := ih hrest
      rw [if_neg hfirst] at hnone
      simp [hnone]
    · have hid' : id ≠ first := Ne.symm hid
      simp [hid, hid', ih hrest]

/-- An event tells an observer who watches of the change that it makes, and nothing else. -/
theorem Enrolled.heard_apply (h : s.Enrolled) (e : Event) (id : ObserverId) :
    (s.apply r settings e).heard id = s.heard id ++
      if s.alters e ∧ id ∈ s.controller.observers then [(s.apply r settings e).controller.snapshot]
      else [] := by
  rw [heard, (Tells.apply r settings s e).notes, List.filter_append, List.map_append]
  refine congrArg (s.heard id ++ ·) ?_
  by_cases he : s.alters e = true
  · rw [if_pos he, filter_told h.nodup]
    simp only [he, true_and]
  · rw [if_neg he, if_neg fun hboth => he hboth.1]
    rfl

/-- Before its number is given, an observer has heard nothing. -/
theorem Enrolled.heard_eq_nil (h : s.Enrolled) (hid : s.controller.nextObserver ≤ id) :
    s.heard id = [] := by
  rw [heard, List.map_eq_nil_iff, List.filter_eq_nil_iff]
  intro note hnote he
  have hlt := h.told hnote
  rw [beq_iff_eq.1 he] at hlt
  exact absurd hlt (Nat.not_lt_of_le hid)

/-- An observer who watches and does not stop hears of the changes of a run, in their order. -/
theorem heard_run (h : s.Enrolled) (hid : id ∈ s.controller.observers) {events : List Event}
    (hstays : .unsubscribe id ∉ events) :
    (s.run r settings events).heard id = s.heard id ++ s.changes r settings events := by
  induction events generalizing s with
  | nil => exact (List.append_nil _).symm
  | cons e events ih =>
    -- the observer watches at the next event, too
    obtain ⟨he, hrest⟩ := List.ne_and_not_mem_of_not_mem_cons hstays
    have hid' : id ∈ (s.apply r settings e).controller.observers :=
      (mem_observers_apply r settings s e).2 (.inr ⟨hid, he.symm⟩)
    rw [run_cons, ih (h.apply e) hid' hrest, h.heard_apply, changes]
    by_cases ha : s.alters e = true
    · rw [if_pos ⟨ha, hid⟩, if_pos ha, List.append_assoc]
      rfl
    · rw [if_neg fun hboth => ha hboth.1, if_neg ha, List.append_nil]

/-- An observer who does not watch any more hears nothing, whatever happens. -/
theorem heard_run_of_gone (h : s.Enrolled) (hid : id ∉ s.controller.observers)
    (hpast : id < s.controller.nextObserver) (events : List Event) :
    (s.run r settings events).heard id = s.heard id := by
  induction events generalizing s with
  | nil => rfl
  | cons e events ih =>
    have hid' : id ∉ (s.apply r settings e).controller.observers := fun hmem =>
      ((mem_observers_apply r settings s e).1 hmem).elim (fun hnew => absurd hnew.2 (Nat.ne_of_lt hpast))
        fun hold => hid hold.1
    have hpast' := Nat.lt_of_lt_of_le hpast (nextObserver_le_apply r settings s e)
    refine (ih (h.apply e) hid' hpast').trans ?_
    rw [h.heard_apply, if_neg fun hboth => hid hboth.2, List.append_nil]

/-- The snapshot after a run is the one right after its last change. -/
theorem snapshot_run (r : Remote σ) (settings : CyclingSettings) (s : System σ) (events : List Event) :
    (s.run r settings events).controller.snapshot =
      (s.changes r settings events).getLastD s.controller.snapshot := by
  induction events generalizing s with
  | nil => rfl
  | cons e events ih =>
    rw [run_cons, ih, changes]
    by_cases ha : s.alters e = true
    · rw [if_pos ha, List.getLastD_cons]
    · rw [if_neg ha, ((Tells.apply r settings s e).idle (Bool.eq_false_iff.2 ha)).2]

/-- Those who watch after a run are those who watched before it or began to, and have not stopped since. -/
theorem mem_observers_run (events : List Event) :
    id ∈ (s.run r settings events).controller.observers ↔
      (id ∈ s.controller.observers ∧ .unsubscribe id ∉ events) ∨
        ∃ earlier since, events = earlier ++ .subscribe :: since ∧
          (s.run r settings earlier).controller.nextObserver = id ∧ .unsubscribe id ∉ since := by
  induction events generalizing s with
  | nil => simp [run]
  | cons e events ih =>
    rw [run_cons, ih, mem_observers_apply]
    constructor
    · rintro (⟨⟨rfl, rfl⟩ | ⟨hid, he⟩, hstays⟩ | ⟨earlier, since, rfl, hnext, hstays⟩)
      · exact .inr ⟨[], events, rfl, rfl, hstays⟩
      · exact .inl ⟨hid, List.not_mem_cons_of_ne_of_not_mem he.symm hstays⟩
      · exact .inr ⟨e :: earlier, since, rfl, hnext, hstays⟩
    · rintro (⟨hid, hstays⟩ | ⟨earlier, since, hevents, hnext, hstays⟩)
      · obtain ⟨he, hrest⟩ := List.ne_and_not_mem_of_not_mem_cons hstays
        exact .inl ⟨.inr ⟨hid, he.symm⟩, hrest⟩
      · cases earlier with
        | nil =>
          obtain ⟨rfl, rfl⟩ := List.cons.inj hevents
          exact .inl ⟨.inl ⟨rfl, hnext.symm⟩, hstays⟩
        | cons first earlier =>
          obtain ⟨rfl, rfl⟩ := List.cons.inj hevents
          exact .inr ⟨earlier, since, rfl, hnext, hstays⟩

/-! ## Everything together -/

/-- Whatever is done in whatever order, from the beginning on. An event counts as a change exactly when the
state is another after it; of a change everybody who watches is told once, with the snapshot right after it,
and of other events nobody is told. Numbers are never given again, and an observer can be removed exactly when
it began to watch and has not stopped since. An observer who begins to watch now hears of the changes that are
made until it stops, and of nothing else before or after; if there were any, the last thing it heard is what
is known now. -/
theorem observers_hear_changes {σ : Type} (r : Remote σ) (settings : CyclingSettings) (remote : σ)
    (eager : Bool) (before : List Event) :
    let s := System.run r settings { remote, eager } before
    (∀ e, let m := s.apply r settings e
      (s.alters e = true ↔ s.Differs m) ∧
      m.notes = s.notes ++
        if s.alters e then s.controller.observers.map (·, m.controller.snapshot) else []) ∧
    (∀ id, (s.controller.unsubscribe id).1 = true ↔
      ∃ earlier since, before = earlier ++ .subscribe :: since ∧
        (System.run r settings { remote, eager } earlier).controller.subscribe.1 = id ∧
        .unsubscribe id ∉ since) ∧
    ∀ during, let id := s.controller.subscribe.1
      let first := s.apply r settings .subscribe
      let m := first.run r settings during
      id < m.controller.subscribe.1 ∧
      (.unsubscribe id ∉ during →
        m.heard id = first.changes r settings during ∧
        (first.changes r settings during ≠ [] →
          (m.heard id).getLast? = some m.controller.snapshot) ∧
        ∀ after, ((m.apply r settings (.unsubscribe id)).run r settings after).heard id =
          first.changes r settings during) := by
  intro s
  have hstart : Coherent { remote, eager } {} := Coherent.init remote eager
  have hc := hstart.run r settings before
  have henrolled : s.Enrolled := (Enrolled.init remote eager).run before
  refine ⟨fun e => ⟨alters_iff hc e, (Tells.apply r settings s e).notes⟩, fun id => ?_, ?_⟩
  · have hnobody : id ∉ ({ remote, eager } : System σ).controller.observers := List.not_mem_nil
    refine List.contains_iff_mem.trans ((mem_observers_run before).trans ?_)
    exact or_iff_right fun h => hnobody h.1
  intro during id first m
  have hfirst : first.Enrolled := henrolled.apply .subscribe
  have hpast : id < first.controller.nextObserver := Nat.lt_succ_self _
  have hpast' : id < m.controller.nextObserver :=
    Nat.lt_of_lt_of_le hpast (nextObserver_le_run r settings first during)
  refine ⟨hpast', fun hstays => ?_⟩
  have hnothing : first.heard id = [] := henrolled.heard_eq_nil (Nat.le_refl _)
  have hwatches : id ∈ first.controller.observers :=
    (mem_observers_apply r settings s .subscribe).2 (.inl ⟨rfl, rfl⟩)
  have hheard : m.heard id = first.changes r settings during := by
    rw [heard_run hfirst hwatches hstays, hnothing, List.nil_append]
  have hm : m.Enrolled := hfirst.run during
  refine ⟨hheard, fun hsome => ?_, fun after => ?_⟩
  · have hlast : m.controller.snapshot = _ := snapshot_run r settings first during
    rw [hheard, hlast]
    cases hchanges : first.changes r settings during with
    | nil => exact absurd hchanges hsome
    | cons snapshot rest => rw [List.getLast?_cons, List.getLastD_cons, List.getLastD_eq_getLast?]
  · have hgone : id ∉ (m.apply r settings (.unsubscribe id)).controller.observers := fun hmem =>
      ((mem_observers_apply r settings m (.unsubscribe id)).1 hmem).elim (fun h => by cases h.1)
        fun h => h.2 rfl
    rw [heard_run_of_gone (hm.apply _) hgone hpast' after]
    exact hheard

/-- The second observer comes when detection has started. It hears of leaving and of a new start; the selection
in between is ignored, and what comes after its removal it does not hear. -/
theorem heard_between_two_starts :
    let r : Remote Unit := ⟨fun s => (.never, s), fun s => (.never, s), fun _ _ s => (.ok [], s)⟩
    let first := System.run r {} { remote := () } [.subscribe, .issue .start, .subscribe]
    let m := first.run r {} [.issue .exit, .issue (.select []), .issue .start]
    m.heard 2 = [{}, Controller.detectingSnapshot] ∧
      (m.heard 2).getLast? = some m.controller.snapshot ∧
      ((m.apply r {} (.unsubscribe 2)).run r {} [.issue .exit]).heard 2 =
        [{}, Controller.detectingSnapshot] := by
  intro r first m
  obtain ⟨-, -, hhears⟩ := observers_hear_changes r {} () false [.subscribe, .issue .start]
  obtain ⟨-, hhears⟩ := hhears [.issue .exit, .issue (.select []), .issue .start]
  obtain ⟨hheard, hlast, hafter⟩ := hhears (by simp)
  exact ⟨hheard, hlast (List.cons_ne_nil _ _), hafter [.issue .exit]⟩

end System

end WindowSurvey
