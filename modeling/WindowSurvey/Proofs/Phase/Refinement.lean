import WindowSurvey.Proofs.Phase.InFlight
/-!
# The system follows the table

The controller with its generations, its task in flight and the calls that wait is indistinguishable from
the table. Whatever is done in whatever order, the snapshots, what observers are told and what callers are
answered are those of the table, which hears of commands when they are given and of the end of work when
a call takes notice of it.

The simulation relates generations and awaited work: a pending call is the one whose work the table awaits
exactly when its generation is the controller's.

## Main definitions

* `System.stimulus`, `System.stimuli` — what the table hears of a run
* `System.Follows` — the simulation
* `System.Coherent` — what is true of every state, with the table where it stands then
-/

namespace WindowSurvey

/-! ## Commands in the table -/

/-- The table has a row for a command exactly when the controller obeys it, with the same snapshot. -/
theorem Flow.command?_eq {f : Flow} {c : Controller} (h : f.snapshot = c.snapshot) (id : CallId)
    (command : Command) : f.command? id command = (c.obey? command).map fun p =>
      { snapshot := p.1.after.snapshot
        awaited := match p.2 with
          | some j => some (id, j.work)
          | none => if command.supersedes then none else f.awaited } := by
  cases command with
  | start =>
    simp only [command?, Controller.obey?, Controller.start?, h]
    split
    · rfl
    · rfl
  | restart => rfl
  | select regions =>
    simp only [command?, Controller.obey?, Controller.select?, h]
    split
    · cases regions <;> rfl
    · rfl
  | navigate index =>
    simp only [command?, Controller.obey?, Controller.navigate?, Navigation.cycles, h]
    by_cases hp : c.snapshot.phase = .navigating ∧ c.snapshot.processing = false
    · cases hr : c.snapshot.selected[index]? with
      | none =>
        have hi : ¬ index < c.snapshot.selected.length :=
          Nat.not_lt_of_le (List.getElem?_eq_none_iff.1 hr)
        simp [hp, hi]
      | some region =>
        have hi : index < c.snapshot.selected.length := (List.getElem?_eq_some_iff.1 hr).1
        simp [hp, hi, Job.work]
    · rw [if_neg hp, if_neg fun e => hp ⟨e.1, e.2.1⟩]
      rfl
  | exit => rfl

/-- The end of some work leads to the same snapshot in the table, if the outcome belongs to the work. -/
theorem Flow.ended?_eq {j : Job} {o : Outcome} (h : o.Fits j) (s : Snapshot) :
    Flow.ended? s j.work o = some (Controller.finishedSnapshot s o) := by
  cases j with
  | detection =>
    rcases o with (failure | ⟨_ | ⟨region, regions⟩⟩) | ⟨_, _⟩
    · rfl
    · rfl
    · rfl
    · cases h
  | navigation index cycles =>
    rcases o with _ | ⟨target, failure | ⟨⟩⟩
    · cases h
    · rfl
    · cases h
      rfl

/-- The end of work that is not awaited has no row. -/
theorem Flow.outcome?_eq_none {f : Flow} {id : CallId} (h : ∀ work, f.awaited ≠ some (id, work))
    (o : Outcome) : f.outcome? id o = none := by
  rw [outcome?]
  split
  · rename_i k work ha
    rw [if_neg]
    rintro rfl
    exact h work ha
  · rfl

/-- Whether the command of a call was accepted. -/
def Call.isAccepted : Call → Bool
  | refused => false
  | pending _ _ _ => true
  | returned => true
  | abandoned => true

namespace System

variable {σ : Type}

/-! ## What the table hears -/

/-- What the table hears of an event. -/
def stimulus (s : System σ) : Event → Stimulus
  | .issue command => .command s.calls.length command
  | .deliver id =>
    match s.ended? id with
    | some o => .outcome id o
    | none => .nothing
  | _ => .nothing

/-- What the table hears of a run, with those who watch at each event. -/
def stimuli (r : Remote σ) (settings : CyclingSettings) (s : System σ) :
    List Event → List (List ObserverId × Stimulus)
  | [] => []
  | e :: events =>
    (s.controller.observers, s.stimulus e) :: (s.apply r settings e).stimuli r settings events

/-- The snapshots of a run from the first on, one after each event. -/
def snapshots (r : Remote σ) (settings : CyclingSettings) (s : System σ) :
    List Event → List Snapshot
  | [] => [s.controller.snapshot]
  | e :: events => s.controller.snapshot :: (s.apply r settings e).snapshots r settings events

/-- The flow in which the table is after a run, from the beginning on. -/
def flow (r : Remote σ) (settings : CyclingSettings) (s : System σ) (events : List Event) : Flow :=
  Flow.run {} ((s.stimuli r settings events).map (·.2))

theorem stimulus_deliver {s : System σ} {id : CallId} {o : Outcome} (h : s.ended? id = some o) :
    s.stimulus (.deliver id) = .outcome id o := by
  simp only [stimulus, h]

theorem stimulus_deliver_none {s : System σ} {id : CallId} (h : s.ended? id = none) :
    s.stimulus (.deliver id) = .nothing := by
  simp only [stimulus, h]

/-! ## The simulation -/

/-- The table stands where the controller does: it shows the same snapshot, and of the pending calls it
awaits the work of that of the controller's generation. -/
structure Follows (s : System σ) (f : Flow) : Prop where
  snapshot : f.snapshot = s.controller.snapshot
  awaited : ∀ {id : CallId} {g : Nat} {j : Job} {stage : CallStage}, s.Pending id g j stage →
    ∀ work, f.awaited = some (id, work) ↔ g = s.controller.generation ∧ work = j.work
  awaited_lt : ∀ {id : CallId} {work : Work}, f.awaited = some (id, work) → id < s.calls.length

theorem follows_init (remote : σ) (eager : Bool) : Follows { remote, eager } {} where
  snapshot := rfl
  awaited h := by cases h
  awaited_lt h := by cases h

theorem map_isAccepted_setCall {s : System σ} {k : CallId} {g : Nat} {j : Job} {stage : CallStage}
    (hk : s.Pending k g j stage) {c : Call} (hc : c.isAccepted = true) :
    (s.setCall k c).calls.map Call.isAccepted = s.calls.map Call.isAccepted :=
  map_set_of_eq hk hc

/-- What one step has to show for the table: the table moves on to where the controller is, and observers
are told the same. -/
structure Agrees (s m : System σ) (f : Flow) (x : Stimulus) : Prop where
  follows : Follows m (f.after x)
  notes : m.notes = s.notes ++ f.told s.controller.observers x
  verdict : m.calls.map Call.isAccepted = s.calls.map Call.isAccepted ++ f.verdict x

/-- Giving the controller back is nothing that the table, an observer or a caller would notice. -/
theorem Agrees.reap {s m : System σ} {f : Flow} {x : Stimulus} (h : Agrees s m f x) :
    Agrees s m.reap f x := by
  rcases reap_cases m with e | ⟨-, e⟩
  · rw [e]
    exact h
  · rw [e]
    refine ⟨⟨?_, ?_, ?_⟩, ?_, ?_⟩
    · rw [controller_adopt]
      exact h.follows.snapshot
    · intro id g j stage hp work
      rw [controller_adopt]
      exact h.follows.awaited (pending_adopt.1 hp) work
    · rw [calls_adopt]
      exact h.follows.awaited_lt
    · rw [notes_adopt]
      exact h.notes
    · rw [calls_adopt]
      exact h.verdict

namespace Follows

variable {r : Remote σ} {settings : CyclingSettings} {s m : System σ} {f : Flow}

/-- A step of which the table hears nothing that has a row. -/
theorem agrees_of_none (h : Follows s f) {x : Stimulus} (hx : f.react? x = none)
    (hs : m.controller.snapshot = s.controller.snapshot)
    (hg : m.controller.generation = s.controller.generation) (hn : m.notes = s.notes)
    (hc : m.calls.map Call.isAccepted = s.calls.map Call.isAccepted ++ f.verdict x)
    (hp : ∀ {id : CallId} {g : Nat} {j : Job} {stage : CallStage}, m.Pending id g j stage →
      ∃ before, s.Pending id g j before) : Agrees s m f x := by
  have ha : f.after x = f := by rw [Flow.after, hx, Option.getD_none]
  refine ⟨?_, ?_, hc⟩
  · rw [ha]
    refine ⟨h.snapshot.trans hs.symm, ?_, ?_⟩
    · intro id g j stage hm work
      obtain ⟨before, hb⟩ := hp hm
      rw [hg]
      exact h.awaited hb work
    · intro id work hw
      have hl := congrArg List.length hc
      rw [List.length_map, List.length_append, List.length_map] at hl
      rw [hl]
      exact Nat.lt_of_lt_of_le (h.awaited_lt hw) (Nat.le_add_right _ _)
  · rw [Flow.told, hx, hn, List.append_nil]

theorem accept (hm : s.Matched) (h : Follows s f) {command : Command} {t : Transition} {j : Job}
    (ho : s.controller.obey? command = some (t, some j)) :
    Agrees s (s.accept t j) f (.command s.calls.length command) := by
  have hr : f.react? (.command s.calls.length command) =
      some { snapshot := t.after.snapshot, awaited := some (s.calls.length, j.work) } := by
    rw [Flow.react?, Flow.command?_eq h.snapshot, ho, Option.map_some]
  have hg : t.after.generation = s.controller.generation + 1 := generation_le_of_begins ho
  refine ⟨?_, ?_, ?_⟩
  · rw [Flow.after, hr, Option.getD_some]
    refine ⟨by rw [controller_accept], ?_, ?_⟩
    · intro id g j' stage hp work
      rw [controller_accept, hg]
      rcases pending_accept.1 hp with hp | ⟨rfl, rfl, rfl, rfl⟩
      · -- an older call has a smaller number and an earlier generation
        have hne : s.calls.length ≠ id := Nat.ne_of_gt hp.lt
        have hle := hm.generation_le hp
        constructor
        · intro e
          cases e
          exact absurd rfl hne
        · rintro ⟨rfl, -⟩
          exact absurd hle (Nat.not_succ_le_self _)
      · simp [hg, eq_comm]
    · intro id work hw
      cases hw
      rw [calls_accept, List.length_append]
      exact Nat.lt_succ_self _
  · have hobs : t.after.observers = s.controller.observers := by
      rcases Controller.obey?_begins ho with ⟨rfl, -, -⟩ | ⟨_, _, -, -, -, -, -, rfl⟩
      · rfl
      · rfl
    rw [notes_accept, Flow.told, hr, Controller.notes, hobs]
  · have hv : f.verdict (.command s.calls.length command) = [true] := by
      have hc : command.isCall = true := by
        rcases Controller.obey?_begins ho with ⟨-, -, ⟨rfl, -⟩ | rfl⟩ | ⟨_, _, rfl, -⟩
        · rfl
        · rfl
        · rfl
      rw [Flow.react?] at hr
      rw [Flow.verdict, if_pos hc, hr, Option.isSome_some]
    rw [hv, calls_accept, List.map_append]
    rfl

theorem perform (hm : s.Matched) (h : Follows s f) {command : Command} {t : Transition}
    (ho : s.controller.obey? command = some (t, none)) :
    Agrees s (s.perform t) f (.command s.calls.length command) := by
  have hr : f.react? (.command s.calls.length command) =
      some { snapshot := t.after.snapshot
             awaited := if command.supersedes then none else f.awaited } := by
    rw [Flow.react?, Flow.command?_eq h.snapshot, ho, Option.map_some]
  have hobs : t.after.observers = s.controller.observers := by
    rcases Controller.obey?_ends ho with ⟨-, rfl⟩ | ⟨_, -, -, rfl⟩
    · rfl
    · rfl
  refine ⟨?_, ?_, ?_⟩
  · rw [Flow.after, hr, Option.getD_some]
    refine ⟨by rw [controller_perform], ?_, ?_⟩
    · intro id g j stage hq work
      have hp : s.Pending id g j stage := pending_perform.1 hq
      rw [controller_perform]
      rcases Controller.obey?_ends ho with ⟨rfl, rfl⟩ | ⟨_, rfl, -, rfl⟩
      · have hle := hm.generation_le hp
        have hne : g ≠ s.controller.exit.after.generation := Nat.ne_of_lt (Nat.lt_succ_of_le hle)
        simp [Command.supersedes, hne]
      · exact h.awaited hp work
    · intro id work hw
      rw [calls_perform]
      by_cases hc : command.supersedes
      · simp [hc] at hw
      · simp only [hc] at hw
        exact h.awaited_lt hw
  · rw [notes_perform, Flow.told, hr, Controller.notes, hobs]
  · have hv : f.verdict (.command s.calls.length command) = [] := by
      rcases Controller.obey?_ends ho with ⟨rfl, -⟩ | ⟨_, rfl, -⟩
      · rfl
      · rfl
    rw [hv, calls_perform, List.append_nil]

theorem refuse (h : Follows s f) {command : Command} (ho : s.controller.obey? command = none) :
    Agrees s (if command.isCall then s.addCall .refused else s) f
      (.command s.calls.length command) := by
  have hr : f.command? s.calls.length command = none := by
    rw [Flow.command?_eq h.snapshot, ho, Option.map_none]
  refine h.agrees_of_none hr (by rw [controller_refuse]) (by rw [controller_refuse]) notes_refuse ?_
    fun hp => ⟨_, pending_refuse.1 hp⟩
  by_cases hc : command.isCall
  · rw [if_pos hc, calls_addCall, Flow.verdict, if_pos hc, hr, List.map_append]
    rfl
  · rw [if_neg hc, Flow.verdict, if_neg hc, List.append_nil]

theorem conclude (hm : s.Matched) (h : Follows s f) {id : CallId} {j : Job} {task : TaskId} {t : Task}
    {time : Nat} {o : Outcome} (hp : s.Pending id s.controller.generation j (.waiting task))
    (ht : s.tasks[task]? = some t) (he : t.end? = some (time, o)) :
    Agrees s ((s.perform { after := { s.controller with
      inFlight := none
      snapshot := Controller.finishedSnapshot s.controller.snapshot o } }).setCall id .returned) f
      (.outcome id o) := by
  have hf : o.Fits j := by
    obtain ⟨t', ht', -, rfl⟩ := hm.begun hp rfl
    cases ht'.symm.trans ht
    exact (hm.fits ht).end he
  have ha : f.awaited = some (id, j.work) := (h.awaited hp j.work).2 ⟨rfl, rfl⟩
  have hr : f.react? (.outcome id o) =
      some { snapshot := Controller.finishedSnapshot s.controller.snapshot o } := by
    simp only [Flow.react?, Flow.outcome?, ha, if_true, h.snapshot, Flow.ended?_eq hf,
      Option.map_some]
  refine ⟨?_, ?_, ?_⟩
  · rw [Flow.after, hr, Option.getD_some]
    refine ⟨rfl, ?_, ?_⟩
    · intro k g j' stage hq work
      -- no other call has the generation of the one that returns
      obtain ⟨hne, hq⟩ := pending_of_settled (pending_perform.2 hp) rfl hq
      have hg : g ≠ s.controller.generation := fun e =>
        hne (hm.alone (pending_perform.1 hq) (e ▸ hp))
      constructor
      · intro e
        cases e
      · intro e
        exact absurd e.1 hg
    · intro k work hw
      cases hw
  · rw [notes_setCall, notes_perform, Flow.told, hr]
    rfl
  · rw [map_isAccepted_setCall (pending_perform.2 hp) rfl, calls_perform]
    exact (List.append_nil _).symm

/-- Every step is one of the table, or the table hears nothing of it that has a row. -/
theorem step (hm : s.Matched) (h : Follows s f) {e : Event} (hs : Step r settings e s m) :
    Agrees s m f (s.stimulus e) := by
  have quiet {x : Stimulus} (hx : f.react? x = none) (hv : f.verdict x = [])
      (hc : m.controller.snapshot = s.controller.snapshot)
      (hg : m.controller.generation = s.controller.generation) (hn : m.notes = s.notes)
      (ha : m.calls.map Call.isAccepted = s.calls.map Call.isAccepted) : Agrees s m f x := by
    refine h.agrees_of_none hx hc hg hn (by rw [ha, hv, List.append_nil]) fun hp => ?_
    have hl := congrArg List.length ha
    rw [List.length_map, List.length_map] at hl
    exact hs.later.pending hp (Nat.lt_of_lt_of_eq hp.lt hl)
  cases hs with
  | accept ho => exact h.accept hm ho
  | perform ho => exact h.perform hm ho
  | refuse ho => exact h.refuse ho
  | spawn hp => exact quiet (x := .nothing) rfl rfl rfl rfl rfl (map_isAccepted_setCall hp rfl)
  | track hp =>
    refine quiet (x := .nothing) rfl rfl ?_ ?_ (notes_adopt s _) ?_
    · rw [controller_setCall, controller_adopt, Controller.snapshot_track]
    · rw [controller_setCall, controller_adopt, Controller.generation_track]
    · rw [map_isAccepted_setCall (pending_adopt.2 hp) rfl, calls_adopt]
  | work ht => exact quiet (x := .nothing) rfl rfl rfl rfl rfl rfl
  | conclude hp ht he =>
    rw [stimulus_deliver (ended?_eq_some hp ht he)]
    exact h.conclude hm hp ht he
  | @dismiss _ id g j task t hp ht hl hg =>
    cases he : t.end? with
    | none =>
      have hn : s.ended? id = none := by rw [ended?_eq hp, ht, Option.bind_some, he, Option.map_none]
      rw [stimulus_deliver_none hn]
      exact quiet rfl rfl rfl rfl rfl (map_isAccepted_setCall hp rfl)
    | some p =>
      -- the outcome is that of work which the table does not await any longer
      have hw : ∀ work, f.awaited ≠ some (id, work) := fun work e => by
        rw [hg ((h.awaited hp work).1 e).1] at he
        cases he
      rw [stimulus_deliver (ended?_eq_some hp ht he)]
      exact quiet (Flow.outcome?_eq_none hw p.2) rfl rfl rfl rfl (map_isAccepted_setCall hp rfl)
  | abandon hp => exact quiet (x := .nothing) rfl rfl rfl rfl rfl (map_isAccepted_setCall hp rfl)
  | @aside _ e observers next clock held hi hd =>
    have hx : s.stimulus e = .nothing := by
      cases e with
      | issue command => exact absurd rfl (hi command)
      | deliver id => exact stimulus_deliver_none (hd id rfl)
      | _ => rfl
    rw [hx]
    exact quiet rfl rfl rfl rfl rfl rfl

theorem apply (hm : s.Matched) (h : Follows s f) (e : Event) :
    Agrees s (s.apply r settings e) f (s.stimulus e) :=
  apply_of_step (h.step hm) Agrees.reap

/-! ## Runs -/

theorem run_snapshots (hm : s.Matched) (h : Follows s f) (events : List Event) :
    s.snapshots r settings events = f.snapshots ((s.stimuli r settings events).map (·.2)) := by
  induction events generalizing s f with
  | nil => rw [snapshots, stimuli, List.map_nil, Flow.snapshots, h.snapshot]
  | cons e events ih =>
    have ha : Agrees s (s.apply r settings e) f (s.stimulus e) := h.apply hm e
    rw [snapshots, stimuli, List.map_cons, Flow.snapshots, h.snapshot, ih (hm.apply e) ha.follows]

theorem run_notes (hm : s.Matched) (h : Follows s f) (events : List Event) :
    (s.run r settings events).notes = s.notes ++ f.notes (s.stimuli r settings events) := by
  induction events generalizing s f with
  | nil => exact (List.append_nil _).symm
  | cons e events ih =>
    have ha : Agrees s (s.apply r settings e) f (s.stimulus e) := h.apply hm e
    have hnext := ih (hm.apply e) ha.follows
    rw [ha.notes, List.append_assoc] at hnext
    exact hnext

theorem run_verdicts (hm : s.Matched) (h : Follows s f) (events : List Event) :
    (s.run r settings events).calls.map Call.isAccepted =
      s.calls.map Call.isAccepted ++ f.verdicts ((s.stimuli r settings events).map (·.2)) := by
  induction events generalizing s f with
  | nil => exact (List.append_nil _).symm
  | cons e events ih =>
    have ha : Agrees s (s.apply r settings e) f (s.stimulus e) := h.apply hm e
    have hnext := ih (hm.apply e) ha.follows
    rw [ha.verdict, List.append_assoc] at hnext
    exact hnext

end Follows

/-! ## Everything together -/

variable {r : Remote σ} {settings : CyclingSettings} {s : System σ} {f : Flow}

/-- What is true of every state that a run can come to, with the table where it stands then. -/
structure Coherent (s : System σ) (f : Flow) : Prop where
  matched : s.Matched
  tracked : s.Tracked
  follows : Follows s f
  sound : f.Sound

namespace Coherent

theorem init (remote : σ) (eager : Bool) : Coherent { remote, eager } {} where
  matched := Matched.init remote eager
  tracked := Tracked.init remote eager
  follows := follows_init remote eager
  sound := Flow.sound_init

theorem apply (h : Coherent s f) (e : Event) :
    Coherent (s.apply r settings e) (f.after (s.stimulus e)) where
  matched := h.matched.apply e
  tracked := h.tracked.apply h.matched e
  follows := (h.follows.apply h.matched e).follows
  sound := h.sound.after _

theorem run (r : Remote σ) (settings : CyclingSettings) (h : Coherent s f) (events : List Event) :
    Coherent (s.run r settings events) (f.run ((s.stimuli r settings events).map (·.2))) := by
  induction events generalizing s f with
  | nil => exact h
  | cons e events ih => exact ih (h.apply e)

end Coherent

end System

end WindowSurvey
