import WindowSurvey.Proofs.Remote.Deeds
/-!
# The schedule of a detection run

A run captures, looks at what it captured, brings the next window to the front and waits, round after round,
and does not go on after the last round. The schedule says so for given answers of the partners. What a run
does is its schedule up to the first call that fails, and the kind of failure that a run ends with does not
depend on what went wrong.

## Main definitions

* `Deed.failure?`, `Deed.stops`, `Deed.found` — how a deed ends a run, and what it adds to its finds
* `Survey.Answers`, `Survey.schedule` — what the partners answer round by round, and what is then to be done
* `Survey.upToFailure` — nothing is done after a call that failed
* `Survey.Verdict` — how rounds ended, judged by their deeds

## Main statements

* `Survey.play_follows_schedule` — whatever the partners answer, a run follows its schedule
-/

namespace WindowSurvey

/-! ## How a deed ends a run -/

namespace Deed

/-- What a run reports after a deed that failed. -/
def failure? : Deed → Option Failure
  | capture (some (.error failure)) => some failure.duringDetection
  | advance (some (.error failure)) => some failure.duringDetection
  | detect _ _ (.error complaint) =>
    some (.detection ("detector task failed: " ++ crashReport complaint))
  | _ => none

/-- Whether a call was not answered. -/
def isLost : Deed → Bool
  | capture none => true
  | advance none => true
  | _ => false

/-- Whether a run does not go on after a deed. -/
def stops (d : Deed) : Bool := d.failure?.isSome || d.isLost

/-- What was found when a frame was looked at. -/
def found : Deed → List Region
  | detect _ _ (.ok regions) => regions
  | _ => []

end Deed

/-- The failures that a detection run is reported with. -/
def Failure.EndsDetection : Failure → Prop
  | detection _ => True
  | detectionTimeout _ => True
  | _ => False

theorem Failure.endsDetection_duringDetection (f : Failure) : f.duringDetection.EndsDetection := by
  cases f <;> trivial

/-- Whatever a partner raised, a run reports that detecting failed. -/
theorem Deed.endsDetection {d : Deed} {failure : Failure} (h : d.failure? = some failure) :
    failure.EndsDetection := by
  unfold failure? at h
  split at h
  · cases h
    exact Failure.endsDetection_duringDetection _
  · cases h
    exact Failure.endsDetection_duringDetection _
  · cases h
    trivial
  · cases h

namespace Survey

/-- What is done of a list of deeds when nothing is done after the first that fails. -/
def upToFailure : List Deed → List Deed
  | [] => []
  | d :: ds => d :: if d.stops then [] else upToFailure ds

/-! ## The schedule -/

/-- What the partners answer in a round: when a frame is asked for, when it is looked at, and when the next
window is asked for. -/
structure Answers where
  capture? : Option (Except Failure (Option Frame))
  found : Except String (List Region)
  advance? : Option (Except Failure Unit)
  deriving Inhabited

/-- The frame that was captured in a round. -/
def Answers.frame? (a : Answers) : Option Frame :=
  match a.capture? with
  | some (.ok frame?) => frame?
  | _ => none

/-- A round: a frame is asked for, and one that was captured is looked at under the number of the round. -/
def roundDeeds (cycle : Nat) (a : Answers) : List Deed :=
  .capture a.capture? :: match a.frame? with
    | some frame => [.detect frame cycle a.found]
    | none => []

/-- The rounds from number `cycle` on, one for each of the answers. Between two rounds the next window is
brought to the front, whether or not there was a frame, and the screen is left to settle. -/
def schedule (settle : Nat) : Nat → List Answers → List Deed
  | _, [] => []
  | cycle, a :: others => roundDeeds cycle a ++
    if others.isEmpty then []
    else .advance a.advance? :: .wait settle :: schedule settle (cycle + 1) others

/-- How rounds that began with a roster ended, judged by their deeds: with what the roster shows after all that
was found, with a failure of the last call, or with a last call that was not answered. -/
def Verdict (roster : Roster) (ds : List Deed) : Option (Script Found) → Prop
  | some (.done (.ok shown)) =>
    (∀ d ∈ ds, d.stops = false) ∧ shown = (roster.insertAll (ds.flatMap Deed.found)).2.finish
  | some (.done (.error failure)) => ∃ d, ds.getLast? = some d ∧ d.failure? = some failure
  | none => ∃ d, ds.getLast? = some d ∧ d.isLost = true
  | some _ => False

/-! ## Going through the rounds -/

section Rounds

variable {settle cycle remaining : Nat} {roster : Roster} {ds before after : List Deed}
  {x : Option (Script Found)}

theorem upToFailure_append (h : ∀ d ∈ before, d.stops = false) :
    upToFailure (before ++ after) = before ++ upToFailure after := by
  induction before with
  | nil => rfl
  | cons d before ih =>
    obtain ⟨hd, hbefore⟩ := List.forall_mem_cons.1 h
    rw [List.cons_append, upToFailure, hd, if_neg Bool.false_ne_true, ih hbefore, List.cons_append]

/-- When nothing stops a run, all of its schedule is done. -/
theorem upToFailure_eq (h : ∀ d ∈ upToFailure ds, d.stops = false) : upToFailure ds = ds := by
  induction ds with
  | nil => rfl
  | cons d ds ih =>
    rw [upToFailure] at h ⊢
    obtain ⟨hd, hds⟩ := List.forall_mem_cons.1 h
    rw [hd, if_neg Bool.false_ne_true] at hds ⊢
    rw [ih hds]

/-- What comes after deeds that did not stop a run decides how it ended. -/
theorem Verdict.append (hbefore : ∀ d ∈ before, d.stops = false)
    (h : Verdict (roster.insertAll (before.flatMap Deed.found)).2 after x) :
    Verdict roster (before ++ after) x := by
  have hlast {d : Deed} (hd : after.getLast? = some d) : (before ++ after).getLast? = some d := by
    rw [List.getLast?_append, hd, Option.some_or]
  match x, h with
  | some (.done (.ok _)), ⟨hafter, hshown⟩ =>
    refine ⟨List.forall_mem_append.2 ⟨hbefore, hafter⟩, ?_⟩
    rw [hshown, List.flatMap_append, Roster.insertAll_append]
  | some (.done (.error _)), ⟨d, hd, hfailure⟩ => exact ⟨d, hlast hd, hfailure⟩
  | none, ⟨d, hd, hlost⟩ => exact ⟨d, hlast hd, hlost⟩

/-- A round in which nothing fails does not stop a run. -/
theorem stops_roundDeeds {a : Answers} {frame? : Option Frame} {found : List Region}
    (hcapture : a.capture? = some (.ok frame?)) (hfound : a.found = .ok found) :
    ∀ d ∈ roundDeeds cycle a, d.stops = false := by
  have hframe : a.frame? = frame? := by rw [Answers.frame?, hcapture]
  rw [roundDeeds, hframe, hcapture, hfound]
  cases frame? with
  | none => exact List.forall_mem_singleton.2 rfl
  | some frame => exact List.forall_mem_cons.2 ⟨rfl, List.forall_mem_singleton.2 rfl⟩

/-- What is done after a round: nothing, or the next window is brought to the front and the other rounds
follow. -/
theorem does_afterRound
    (ih : ∀ {ds x}, (rounds settle remaining (cycle + 1) roster).Does ds x →
      (∀ p, x = some p → ∃ result, p = .done result) → ∃ answers, answers.length = remaining ∧
        ds = upToFailure (schedule settle (cycle + 1) answers) ∧ Verdict roster ds x)
    (h : (afterRound settle remaining cycle roster).Does ds x)
    (hx : ∀ p, x = some p → ∃ result, p = .done result) :
    ∃ advance? others, others.length = remaining ∧ ds = upToFailure (if others.isEmpty then [] else
      .advance advance? :: .wait settle :: schedule settle (cycle + 1) others) ∧
      Verdict roster ds x := by
  by_cases hr : remaining = 0
  · rw [afterRound, if_pos hr] at h
    cases h
    exact ⟨none, [], by simp [hr], rfl, List.forall_mem_nil _, rfl⟩
  have hne {others : List Answers} (hlength : others.length = remaining) :
      others.isEmpty = false := by
    cases others with
    | nil => exact absurd hlength.symm hr
    | cons a others => rfl
  -- the rounds that are not reached have no answers to be told
  have hunused : (List.replicate remaining (default : Answers)).length = remaining :=
    List.length_replicate
  rw [afterRound, if_neg hr] at h
  cases h with
  | rest =>
    obtain ⟨result, hp⟩ := hx _ rfl
    cases hp
  | advanceLost =>
    refine ⟨none, _, hunused, ?_, .advance none, rfl, rfl⟩
    rw [hne hunused]
    rfl
  | @advance _ answer ds _ h =>
    cases answer with
    | error failure =>
      cases h
      refine ⟨some (.error failure), _, hunused, ?_, .advance (some (.error failure)), rfl, rfl⟩
      rw [hne hunused]
      rfl
    | ok =>
      cases h with
      | rest =>
        obtain ⟨result, hp⟩ := hx _ rfl
        cases hp
      | @wait _ _ ds _ h =>
        obtain ⟨others, hlength, rfl, hverdict⟩ := ih h hx
        have hgo : ∀ d ∈ [Deed.advance (some (.ok ())), .wait settle], d.stops = false :=
          List.forall_mem_cons.2 ⟨rfl, List.forall_mem_singleton.2 rfl⟩
        refine ⟨some (.ok ()), others, hlength, ?_, Verdict.append hgo hverdict⟩
        rw [hne hlength]
        exact (upToFailure_append hgo).symm

/-- Rounds that were gone through to an end follow their schedule up to the first call that failed. -/
theorem does_rounds (h : (rounds settle remaining cycle roster).Does ds x)
    (hx : ∀ p, x = some p → ∃ result, p = .done result) : ∃ answers, answers.length = remaining ∧
      ds = upToFailure (schedule settle cycle answers) ∧ Verdict roster ds x := by
  induction remaining generalizing cycle roster ds x with
  | zero =>
    cases h
    exact ⟨[], rfl, rfl, List.forall_mem_nil _, rfl⟩
  | succ remaining ih =>
    have hunused : (List.replicate remaining (default : Answers)).length = remaining :=
      List.length_replicate
    have goOn {frame? : Option Frame} {found : List Region} {after : List Deed} (a : Answers)
        (hcapture : a.capture? = some (.ok frame?)) (hfound : a.found = .ok found)
        (h : (afterRound settle remaining cycle
          (roster.insertAll ((roundDeeds cycle a).flatMap Deed.found)).2).Does after x) :
        ∃ answers, answers.length = remaining + 1 ∧
          roundDeeds cycle a ++ after = upToFailure (schedule settle cycle answers) ∧
          Verdict roster (roundDeeds cycle a ++ after) x := by
      obtain ⟨advance?, others, hlength, rfl, hverdict⟩ := does_afterRound ih h hx
      have hround : ∀ d ∈ roundDeeds cycle a, d.stops = false := stops_roundDeeds hcapture hfound
      refine ⟨{ a with advance? } :: others, by rw [List.length_cons, hlength], ?_,
        hverdict.append hround⟩
      exact (upToFailure_append hround).symm
    rw [rounds_succ] at h
    cases h with
    | rest =>
      obtain ⟨result, hp⟩ := hx _ rfl
      cases hp
    | captureLost =>
      exact ⟨⟨none, default, default⟩ :: _, congrArg (· + 1) hunused, rfl, .capture none, rfl, rfl⟩
    | @capture _ answer ds _ h =>
      cases answer with
      | error failure =>
        cases h
        exact ⟨⟨some (.error failure), default, default⟩ :: _, congrArg (· + 1) hunused, rfl,
          .capture (some (.error failure)), rfl, rfl⟩
      | ok frame? =>
        cases frame? with
        | none => exact goOn ⟨some (.ok none), .ok [], default⟩ rfl rfl h
        | some frame =>
          cases h with
          | rest =>
            obtain ⟨result, hp⟩ := hx _ rfl
            cases hp
          | @detect _ _ _ found ds _ h =>
            cases found with
            | error complaint =>
              cases h
              exact ⟨⟨some (.ok (some frame)), .error complaint, default⟩ :: _,
                congrArg (· + 1) hunused, rfl, .detect frame cycle (.error complaint), rfl, rfl⟩
            | ok found =>
              refine goOn ⟨some (.ok (some frame)), .ok found, default⟩ rfl rfl ?_
              simpa [roundDeeds, Answers.frame?, Deed.found] using h

end Rounds

/-! ## The requests of a schedule -/

section Requests

variable (settle cycle : Nat) (answers : List Answers)

/-- The requests of a schedule, in order. -/
def requests : List Request := (schedule settle cycle answers).filterMap Deed.request?

theorem requests_cons (a : Answers) : requests settle cycle (a :: answers) =
    .capture :: ((a.frame?.map fun _ => Request.detect cycle).toList ++
      if answers.isEmpty then [] else .advance :: requests settle (cycle + 1) answers) := by
  rw [requests, schedule, roundDeeds, requests]
  cases a.frame? <;> cases answers <;> rfl

theorem count_capture_requests : (requests settle cycle answers).count .capture = answers.length := by
  induction answers generalizing cycle with
  | nil => rfl
  | cons a others ih =>
    rw [requests_cons]
    cases others with
    | nil => cases a.frame? <;> rfl
    | cons b others => cases a.frame? <;> simp [ih]

theorem count_advance_requests :
    (requests settle cycle answers).count .advance = answers.length - 1 := by
  induction answers generalizing cycle with
  | nil => rfl
  | cons a others ih =>
    rw [requests_cons]
    cases others with
    | nil => cases a.frame? <;> rfl
    | cons b others => cases a.frame? <;> simp [ih]

/-- The numbers of the rounds that had a frame. -/
def seen : List Nat := (answers.zipIdx cycle).filterMap fun (a, k) => a.frame?.map fun _ => k

theorem detects_requests : ((requests settle cycle answers).filterMap fun
    | .detect k => some k
    | _ => none) = seen cycle answers := by
  induction answers generalizing cycle with
  | nil => rfl
  | cons a others ih =>
    rw [requests_cons, seen, List.zipIdx_cons]
    cases others with
    | nil => cases h : a.frame? <;> simp [h]
    | cons b others => cases h : a.frame? <;> simp [h, ih, seen]

/-- Another frame is asked for whenever the next window was brought to the front. -/
theorem capture_mem_after_advance {before after : List Request}
    (h : requests settle cycle answers = before ++ .advance :: after) : .capture ∈ after := by
  induction answers generalizing cycle before with
  | nil => simp [requests, schedule] at h
  | cons a others ih =>
    rw [requests_cons, ← List.cons_append] at h
    have hround : Request.advance ∉
        Request.capture :: (a.frame?.map fun _ => Request.detect cycle).toList := by simp
    rcases List.append_eq_append_iff.1 h with ⟨between, -, htail⟩ | ⟨between, hbetween, htail⟩
    · cases others with
      | nil => simp at htail
      | cons b others =>
        rw [List.isEmpty_cons, if_neg Bool.false_ne_true, List.cons_eq_append_iff] at htail
        rcases htail with ⟨-, htail⟩ | ⟨between, -, htail⟩
        · rw [(List.cons.inj htail).2, requests_cons]
          exact List.mem_cons_self
        · exact ih (cycle + 1) htail
    · cases between with
      | nil =>
        cases others with
        | nil => simp at htail
        | cons b others =>
          rw [List.nil_append, List.isEmpty_cons, if_neg Bool.false_ne_true] at htail
          rw [(List.cons.inj htail).2, requests_cons]
          exact List.mem_cons_self
      | cons request between =>
        rw [← (List.cons.inj htail).1] at hbetween
        exact absurd (hbetween ▸ by simp) hround

end Requests

/-! ## Runs without a deadline -/

section Runs

variable {σ : Type} (r : Remote σ) (settings : CyclingSettings)

/-- What a run has done that had all the time it needed, where `log` holds its requests. With a result all of
its schedule is done; otherwise it is done up to the call that failed or that was not answered. -/
structure FollowsSchedule (answers : List Answers) (deeds : List Deed) (progress : Progress Found)
    (log : Logged σ) : Prop where
  rounds : answers.length = settings.maxAttempts
  deeds_eq : deeds = upToFailure (schedule settings.settleDelay 0 answers)
  requests_eq : log.requests.reverse = deeds.filterMap Deed.request?
  whole : ∀ time shown, progress = .finished time (.ok shown) →
    deeds = schedule settings.settleDelay 0 answers ∧ (∀ d ∈ deeds, d.stops = false) ∧
    log.captures = settings.maxAttempts ∧ log.advances = settings.maxAttempts - 1 ∧
    log.detectCycles = seen 0 answers ∧
    ∀ before after, log.requests.reverse = before ++ .advance :: after → .capture ∈ after
  cut : ∀ time failure, progress = .finished time (.error failure) →
    failure.EndsDetection ∧ ∃ d, deeds.getLast? = some d ∧ d.failure? = some failure
  lost : progress.rest? = none → ∃ d, deeds.getLast? = some d ∧ d.isLost = true
  ended : ∀ time rest, progress ≠ .due time rest

/-- Whatever the partners answer, a run without a deadline follows its schedule. So it switches once between each
two rounds, with or without a frame, looks at every frame once under the number of its round, does nothing after a
call that failed, and then reports that detecting failed. -/
theorem play_follows_schedule (start : Nat) (s : σ) : ∃ answers,
    FollowsSchedule settings answers ((script settings).deeds r none start s)
      ((script settings).play r.logged none start ⟨s, []⟩).1
      ((script settings).play r.logged none start ⟨s, []⟩).2 := by
  have hdoes := Script.play_does r none (script settings) start s
  have hdue (t : Nat) (rest : Script Found) : ((script settings).play r none start s).1 ≠ .due t rest :=
    (script settings).play_ne_due r start s
  rw [Script.play_logged]
  generalize (script settings).deeds r none start s = ds at hdoes ⊢
  generalize ((script settings).play r none start s).1 = progress at hdoes hdue ⊢
  have hend : ∀ p, progress.rest? = some p → ∃ result, p = .done result := by
    intro p hp
    cases progress with
    | finished time result => exact ⟨result, (Option.some.inj hp).symm⟩
    | due => exact (hdue _ _ rfl).elim
    | stalled | crashed => cases hp
  obtain ⟨answers, hlength, rfl, hverdict⟩ := does_rounds hdoes hend
  refine ⟨answers, hlength, rfl, by simp, ?_, ?_, ?_, hdue⟩
  · rintro time shown rfl
    obtain ⟨hstops, -⟩ := hverdict
    have hwhole := upToFailure_eq hstops
    have hrequests : (schedule settings.settleDelay 0 answers).filterMap Deed.request? =
        requests settings.settleDelay 0 answers := rfl
    rw [hwhole] at hstops ⊢
    simp only [Logged.captures, Logged.advances, Logged.detectCycles, List.append_nil,
      List.reverse_reverse, List.count_reverse, hrequests, count_capture_requests,
      count_advance_requests, hlength, true_and]
    exact ⟨hstops, detects_requests _ _ _, fun _ _ h => capture_mem_after_advance _ _ _ h⟩
  · rintro time failure rfl
    obtain ⟨d, hd, hfailure⟩ := hverdict
    exact ⟨d.endsDetection hfailure, d, hd, hfailure⟩
  · intro hnone
    rw [hnone] at hverdict
    exact hverdict

/-- The second of four rounds has no frame, but its number is not used again. -/
example : ((script Rehearsed.settings).play Rehearsed.rehearsal.remote.logged none 0
    ⟨{}, []⟩).2.requests.reverse = [.capture, .detect 0, .advance, .capture, .advance,
      .capture, .detect 2, .advance, .capture, .detect 3] := by
  rfl

end Runs

end Survey

end WindowSurvey
