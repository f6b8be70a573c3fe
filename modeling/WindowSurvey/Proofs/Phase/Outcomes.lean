import WindowSurvey.Proofs.Phase.Refinement
/-!
# Every outcome once

How often the end of the work of a call is applied: once if its caller takes notice of it before anybody
leaves the flow or starts it anew, and otherwise never. While nobody does, the call keeps the generation of
the controller and its task is not stopped; afterwards its generation has passed for good.

## Main definitions

* `Event.supersedes` — somebody leaves the flow or starts it anew
* `System.Stale` — the generation of a call has passed, or nobody waits for it
-/

namespace WindowSurvey

/-- Whether an event gives up the awaited work. -/
def Event.supersedes : Event → Bool
  | issue command => command.supersedes
  | _ => false

namespace System

variable {σ : Type} {r : Remote σ} {settings : CyclingSettings} {s m : System σ} {f : Flow}

/-! ## Calls that take notice -/

theorem exists_pending_of_ended {id : CallId} {o : Outcome} (h : s.ended? id = some o) :
    ∃ g j task t time, s.Pending id g j (.waiting task) ∧ s.tasks[task]? = some t ∧
      t.end? = some (time, o) := by
  rw [ended?] at h
  split at h
  · rename_i g j task hp
    obtain ⟨⟨time, o'⟩, hb, rfl⟩ := Option.map_eq_some_iff.1 h
    obtain ⟨t, ht, he⟩ := Option.bind_eq_some_iff.1 hb
    exact ⟨g, j, task, t, time, hp, ht, he⟩
  · cases h

/-- The end of the work of a call is heard of when the call takes notice of it. -/
theorem ended_of_applies {id : CallId} {e : Event} (h : f.applies id (s.stimulus e) = true) :
    e = .deliver id ∧ ∃ o, s.ended? id = some o ∧ (f.outcome? id o).isSome := by
  cases e with
  | deliver k =>
    cases ho : s.ended? k with
    | none =>
      rw [stimulus_deliver_none ho] at h
      cases h
    | some o =>
      rw [stimulus_deliver ho, Flow.applies, Bool.and_eq_true, beq_iff_eq] at h
      obtain ⟨rfl, hs⟩ := h
      exact ⟨rfl, o, ho, hs⟩
  | _ => cases h

/-- A call that takes notice of an outcome returns. -/
theorem returned_of_ended {id : CallId} {o : Outcome} (h : s.ended? id = some o) :
    (s.apply r settings (.deliver id)).calls[id]? = some .returned := by
  have hs : (s.deliver id).calls[id]? = some .returned := by
    have hd := deliver_step r settings s id
    generalize s.deliver id = m at hd
    cases hd with
    | conclude hk => exact getElem?_setCall_self (pending_perform.2 hk) _
    | dismiss hk => exact getElem?_setCall_self hk _
    | aside observers next clock held hi hd =>
      rw [hd id rfl] at h
      cases h
  exact (later_reap (s.deliver id)).settled hs rfl

/-! ## Calls whose work is out of date -/

/-- Nothing that comes of the work of a call is wanted any more: the generation of the call has passed, or
its caller does not wait. -/
structure Stale (s : System σ) (id : CallId) : Prop where
  lt : id < s.calls.length
  passed : ∀ {g : Nat} {j : Job} {stage : CallStage}, s.Pending id g j stage →
    g < s.controller.generation

namespace Stale

theorem of_later {id : CallId} (h : s.Stale id) (hm : Later s m) : m.Stale id where
  lt := Nat.lt_of_lt_of_le h.lt hm.length_le
  passed hp := by
    obtain ⟨before, hb⟩ := hm.pending hp h.lt
    exact Nat.lt_of_lt_of_le (h.passed hb) hm.generation_le

theorem of_settled {id : CallId} {c : Call} (hc : s.calls[id]? = some c) (hp : c.isPending = false) :
    s.Stale id where
  lt := (List.getElem?_eq_some_iff.1 hc).1
  passed h := by
    cases hc.symm.trans h
    cases hp

theorem applies_eq_false {id : CallId} (h : s.Stale id) (hf : Follows s f) (e : Event) :
    f.applies id (s.stimulus e) = false := by
  rw [Bool.eq_false_iff]
  intro ha
  obtain ⟨-, o, ho, hs⟩ := ended_of_applies ha
  obtain ⟨g, j, task, t, time, hp, -⟩ := exists_pending_of_ended ho
  have hw : ∀ work, f.awaited ≠ some (id, work) := fun work e =>
    absurd ((hf.awaited hp work).1 e).1 (Nat.ne_of_lt (h.passed hp))
  rw [Flow.outcome?_eq_none hw o] at hs
  cases hs

theorem applied_eq_zero {id : CallId} (h : s.Stale id) (hm : s.Matched) (hf : Follows s f)
    (events : List Event) : f.applied id ((s.stimuli r settings events).map (·.2)) = 0 := by
  induction events generalizing s f with
  | nil => rfl
  | cons e events ih =>
    have ha : Agrees s (s.apply r settings e) f (s.stimulus e) := hf.apply hm e
    have hnext := ih (h.of_later (later_apply s e)) (hm.apply e) ha.follows
    rw [stimuli, List.map_cons, Flow.applied, h.applies_eq_false hf e, hnext]
    rfl

end Stale

/-- Leaving the flow and starting it anew begin a new generation. -/
theorem generation_of_supersedes {e : Event} (he : e.supersedes = true) :
    (s.apply r settings e).controller.generation = s.controller.generation + 1 := by
  cases e with
  | issue command =>
    cases command with
    | restart =>
      rw [apply, issue, controller_accept]
      rfl
    | exit =>
      rw [apply, issue, controller_perform]
      rfl
    | _ => cases he
  | _ => cases he

/-- All work that was begun before is out of date then. -/
theorem stale_of_supersedes {id : CallId} (hid : id < s.calls.length) (hm : s.Matched) {e : Event}
    (he : e.supersedes = true) : (s.apply r settings e).Stale id where
  lt := Nat.lt_of_lt_of_le hid (later_apply s e).length_le
  passed hp := by
    obtain ⟨before, hb⟩ := (later_apply s e).pending hp hid
    rw [generation_of_supersedes he]
    exact Nat.lt_succ_of_le (hm.generation_le hb)

theorem Matched.stale_of_run (r : Remote σ) (settings : CyclingSettings) (hm : s.Matched) {id : CallId}
    (hid : id < s.calls.length) {command : Command} (hc : command.supersedes = true)
    (events : List Event) : (s.run r settings (.issue command :: events)).Stale id :=
  (stale_of_supersedes (e := .issue command) hid hm hc).of_later (later_run _ events)

/-! ## Calls whose work is awaited -/

namespace Coherent

/-- A waiting call of the controller's generation whose task has ended has its outcome applied. -/
theorem applies_of_ended (h : Coherent s f) {id : CallId} {j : Job} {stage : CallStage} {o : Outcome}
    (hp : s.Pending id s.controller.generation j stage) (ho : s.ended? id = some o) :
    f.applies id (s.stimulus (.deliver id)) = true := by
  obtain ⟨g, j', task, t, time, hq, ht, he⟩ := exists_pending_of_ended ho
  obtain ⟨rfl, rfl, rfl⟩ := hp.unique hq
  have hf : o.Fits j := by
    obtain ⟨t', ht', -, rfl⟩ := h.matched.begun hq rfl
    cases ht'.symm.trans ht
    exact (h.matched.fits ht).end he
  have ha : f.awaited = some (id, j.work) := (h.follows.awaited hp j.work).2 ⟨rfl, rfl⟩
  rw [stimulus_deliver ho]
  simp only [Flow.applies, Flow.outcome?, ha, if_true, Flow.ended?_eq hf, Option.map_some,
    Option.isSome_some, beq_self_eq_true, Bool.and_self]

/-- While work is awaited and nobody gives it up, no row fires, unless its caller takes notice of its end. -/
theorem react?_eq_none (h : Coherent s f) {id : CallId} {j : Job} {stage : CallStage}
    (hp : s.Pending id s.controller.generation j stage) {e : Event} (he : e.supersedes = false)
    {g' : Nat} {j' : Job} {stage' : CallStage} (hq : (s.apply r settings e).Pending id g' j' stage') :
    f.react? (s.stimulus e) = none := by
  have ha : f.awaited = some (id, j.work) := (h.follows.awaited hp j.work).2 ⟨rfl, rfl⟩
  cases e with
  | issue command => exact h.sound.command?_eq_none ha _ he
  | deliver k =>
    cases ho : s.ended? k with
    | none =>
      rw [stimulus_deliver_none ho]
      rfl
    | some o =>
      rw [stimulus_deliver ho]
      refine Flow.outcome?_eq_none (fun work e => ?_) o
      cases ha.symm.trans e
      cases hq.symm.trans (returned_of_ended ho)
  | _ => rfl

/-- As long as nobody gives it up, awaited work goes on, or its outcome is applied when its caller takes
notice of it, or its caller does not wait any more. -/
theorem awaited_step (h : Coherent s f) {id : CallId} {j : Job} {stage : CallStage}
    (hp : s.Pending id s.controller.generation j stage) {e : Event} (he : e.supersedes = false) :
    (f.applies id (s.stimulus e) = false ∧ ∃ stage', (s.apply r settings e).Pending id
      (s.apply r settings e).controller.generation j stage') ∨
    (f.applies id (s.stimulus e) = true ∧ (s.apply r settings e).calls[id]? = some .returned) ∨
    (f.applies id (s.stimulus e) = false ∧
      (s.apply r settings e).calls[id]? = some .abandoned) := by
  have ha : f.awaited = some (id, j.work) := (h.follows.awaited hp j.work).2 ⟨rfl, rfl⟩
  rcases call_apply hp e with ⟨stage', hq, -⟩ | ⟨rfl, hr, task, t, rfl, ht, hl⟩ | ⟨rfl, hr⟩
  · have hn : f.applies id (s.stimulus e) = false := by
      rw [Bool.eq_false_iff]
      intro hx
      obtain ⟨rfl, o, ho, -⟩ := ended_of_applies hx
      cases hq.symm.trans (returned_of_ended ho)
    -- no row fires, so the table still awaits this call, and that ties its generation
    have hm : Coherent (s.apply r settings e) (f.after (s.stimulus e)) := h.apply e
    rw [Flow.after, h.react?_eq_none hp he hq, Option.getD_none] at hm
    obtain ⟨hg, -⟩ := (hm.follows.awaited hq j.work).1 ha
    exact .inl ⟨hn, stage', hg ▸ hq⟩
  · -- the task was not stopped, so the call returns with an outcome
    obtain ⟨time, o, he⟩ := Task.exists_end hl ((h.tracked.waiting hp rfl).2 t ht)
    exact .inr (.inl ⟨h.applies_of_ended hp (ended?_eq_some hp ht he), hr⟩)
  · exact .inr (.inr ⟨rfl, hr⟩)

/-- The outcome of awaited work is applied once if its call returns before anybody gives the work up, and
otherwise never. -/
theorem applied_eq (r : Remote σ) (settings : CyclingSettings) (h : Coherent s f) {id : CallId}
    {j : Job} {stage : CallStage} (hp : s.Pending id s.controller.generation j stage)
    (events : List Event) :
    f.applied id ((s.stimuli r settings events).map (·.2)) =
      if (s.run r settings (events.takeWhile (!·.supersedes))).calls[id]? = some .returned
      then 1 else 0 := by
  induction events generalizing s f stage with
  | nil =>
    have hne : s.calls[id]? ≠ some .returned := fun hr => by cases hp.symm.trans hr
    exact (if_neg hne).symm
  | cons e events ih =>
    have hm : Coherent (s.apply r settings e) (f.after (s.stimulus e)) := h.apply e
    rw [stimuli, List.map_cons, Flow.applied]
    cases he : e.supersedes with
    | true =>
      have hne : s.calls[id]? ≠ some .returned := fun hr => by cases hp.symm.trans hr
      have hx : f.applies id (s.stimulus e) = false := by
        cases e with
        | issue command => rfl
        | _ => cases he
      rw [List.takeWhile_cons_of_neg (by rw [he]; exact Bool.false_ne_true), hx,
        (stale_of_supersedes hp.lt h.matched he).applied_eq_zero hm.matched hm.follows]
      exact (if_neg hne).symm
    | false =>
      have hl : Later (s.apply r settings e)
          ((s.apply r settings e).run r settings (events.takeWhile (!·.supersedes))) := later_run _ _
      rw [List.takeWhile_cons_of_pos (by rw [he]; rfl)]
      rcases h.awaited_step hp he with ⟨hn, stage', hq⟩ | ⟨hn, hr⟩ | ⟨hn, hr⟩
      · rw [hn, ih hm hq]
        exact Nat.zero_add _
      · have hlast := hl.settled hr rfl
        rw [hn, (Stale.of_settled hr rfl).applied_eq_zero hm.matched hm.follows]
        exact (if_pos hlast).symm
      · have hlast := hl.settled hr rfl
        rw [hn, (Stale.of_settled hr rfl).applied_eq_zero hm.matched hm.follows]
        refine (if_neg fun e => ?_).symm
        cases hlast.symm.trans e

/-- An accepted command that makes a call is pending in the controller's generation. -/
theorem pending_of_accepted (r : Remote σ) (settings : CyclingSettings) (h : Coherent s f)
    {command : Command} (hv : f.verdict (.command s.calls.length command) = [true]) :
    ∃ j, (s.apply r settings (.issue command)).Pending s.calls.length
      (s.apply r settings (.issue command)).controller.generation j .accepted := by
  have hc : command.isCall = true := by
    by_cases hc : command.isCall = true
    · exact hc
    · simp [Flow.verdict, hc] at hv
  have hs : Step r settings (.issue command) s (s.apply r settings (.issue command)) :=
    issue_step r settings s command
  generalize s.apply r settings (.issue command) = m at hs
  cases hs with
  | @accept _ _ t j ho =>
    rw [controller_accept]
    exact ⟨j, pending_accept.2 (.inr ⟨rfl, rfl, rfl, rfl⟩)⟩
  | perform ho =>
    rcases Controller.obey?_ends ho with ⟨rfl, -⟩ | ⟨_, rfl, -⟩
    · cases hc
    · cases hc
  | refuse ho =>
    rw [Flow.verdict, if_pos hc, Flow.command?_eq h.follows.snapshot, ho] at hv
    cases hv
  | aside observers next clock held hi => exact absurd rfl (hi command)

end Coherent

/-! ## Whole runs -/

theorem stimuli_append (s : System σ) (first second : List Event) :
    s.stimuli r settings (first ++ second) =
      s.stimuli r settings first ++ (s.run r settings first).stimuli r settings second := by
  induction first generalizing s with
  | nil => rfl
  | cons e first ih => exact congrArg (_ :: ·) (ih _)

/-- A call that is not made yet has no outcome. -/
theorem applied_eq_zero_of_unmade {id : CallId} {events : List Event}
    (h : (s.run r settings events).calls.length ≤ id) :
    f.applied id ((s.stimuli r settings events).map (·.2)) = 0 := by
  induction events generalizing s f with
  | nil => rfl
  | cons e events ih =>
    have hl : Later s (s.run r settings (e :: events)) := later_run s _
    have hx : f.applies id (s.stimulus e) = false := by
      rw [Bool.eq_false_iff]
      intro hx
      obtain ⟨-, o, ho, -⟩ := ended_of_applies hx
      obtain ⟨g, j, task, t, time, hp, -⟩ := exists_pending_of_ended ho
      exact Nat.not_lt_of_le (Nat.le_trans hl.length_le h) hp.lt
    rw [stimuli, List.map_cons, Flow.applied, hx, ih h]
    rfl

/-- What a caller is told in the end, once it is told anything. -/
def answer? (s : System σ) (id : CallId) : Option Bool := s.calls[id]?.bind Call.answer?

theorem isAccepted_of_answer {id : CallId} {b : Bool} (h : s.answer? id = some b) :
    (s.calls.map Call.isAccepted)[id]? = some b := by
  obtain ⟨c, hc, hb⟩ := Option.bind_eq_some_iff.1 h
  rw [List.getElem?_map, hc, Option.map_some]
  cases c with
  | refused => exact hb
  | returned => exact hb
  | _ => cases hb

theorem answer_of_not_accepted {id : CallId} (h : (s.calls.map Call.isAccepted)[id]? = some false) :
    s.answer? id = some false := by
  rw [List.getElem?_map] at h
  obtain ⟨c, hc, hb⟩ := Option.map_eq_some_iff.1 h
  rw [answer?, hc, Option.bind_some]
  cases c with
  | refused => rfl
  | _ => cases hb

/-- Whatever is done in whatever order, the controller is indistinguishable from the table. The snapshots
are those of the table, and so is what observers are told. A caller whose command has no row is told so at
once, and one whose command has a row is told nothing else. A call whose task has ended by itself returns
when it takes notice of that; and the outcome is applied once in the whole run if the call of an accepted
command returns before anybody leaves the flow or starts it anew after that command, and else never. -/
theorem refines_flow {σ : Type} (r : Remote σ) (settings : CyclingSettings) (remote : σ) (eager : Bool)
    (events : List Event) :
    let s : System σ := { remote, eager }
    let m := s.run r settings events
    let told := s.stimuli r settings events
    let xs := told.map (·.2)
    let f : Flow := {}
    s.snapshots r settings events = f.snapshots xs ∧
    m.notes = f.notes told ∧
    (∀ id, (m.answer? id = some false ↔ (f.verdicts xs)[id]? = some false) ∧
      (m.answer? id = some true → (f.verdicts xs)[id]? = some true)) ∧
    (∀ id, (m.ended? id).isSome →
      (m.apply r settings (.deliver id)).calls[id]? = some .returned) ∧
    ∀ before command after, events = before ++ .issue command :: after →
      let id := (s.run r settings before).calls.length
      (s.flow r settings before).verdict (.command id command) = [true] →
        f.applied id xs =
          if (s.run r settings (before ++ .issue command ::
            after.takeWhile (!·.supersedes))).calls[id]? = some .returned then 1 else 0 := by
  intro s m told xs f
  have h : Coherent s f := Coherent.init remote eager
  have hv : m.calls.map Call.isAccepted = f.verdicts xs := h.follows.run_verdicts h.matched events
  refine ⟨h.follows.run_snapshots h.matched events, h.follows.run_notes h.matched events, ?_, ?_, ?_⟩
  · intro id
    rw [← hv]
    exact ⟨⟨isAccepted_of_answer, answer_of_not_accepted⟩, isAccepted_of_answer⟩
  · intro id he
    obtain ⟨o, ho⟩ := Option.isSome_iff_exists.1 he
    exact returned_of_ended ho
  · rintro before command after rfl id hc
    have hb : Coherent (s.run r settings before) (s.flow r settings before) := h.run r settings before
    obtain ⟨j, hp⟩ := hb.pending_of_accepted r settings hc
    have ha := (hb.apply (.issue command)).applied_eq r settings hp after
    have hx : xs = (s.stimuli r settings before).map (·.2) ++
        .command id command :: (((s.run r settings before).apply r settings
          (.issue command)).stimuli r settings after).map (·.2) := by
      simp only [xs, told, stimuli_append, List.map_append]
      rfl
    rw [hx, Flow.applied_append, applied_eq_zero_of_unmade (Nat.le_refl _), Nat.zero_add, run_append]
    exact (Nat.zero_add _).trans ha

end System

end WindowSurvey
