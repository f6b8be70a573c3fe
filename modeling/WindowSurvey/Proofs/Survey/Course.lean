import WindowSurvey.Proofs.Region.Roster
import WindowSurvey.Remote.Rehearsal
import WindowSurvey.Survey.Run
/-!
# What a detection run has seen

The course of a run is the list of its rounds, each with the frame that was captured, if there was one, and
with what was found in it. Partners answer according to their state, so a run that comes to its end has one
course only, and its result can be read off it: the first sightings that are not small, from large to small.

## Main definitions

* `Reply.answer?` — what a partner answers in the end
* `Round`, `Round.Played` — a round, and the state of the partners before and after it
* `Survey.Course` — the rounds of a run that meets with no failure
* `Survey.afterRound` — the plan from the end of a round on
-/

namespace WindowSurvey

variable {α σ : Type} {r : Remote σ} {s s' s₁ s₂ : σ}

/-- What a partner answers, no matter when. -/
def Reply.answer? : Reply α → Option (Except Failure α)
  | now result => some result
  | after _ result => some result
  | never => none
  | crash _ => none

/-! ## Scripts that were played to their end -/

namespace Script

variable {horizon : Option Nat} {time t : Nat} {a : α}

theorem play_capture_finished {next : Except Failure (Option Frame) → Script α}
    (h : (capture next).play r horizon time s = (.finished t a, s')) : ∃ answer time',
      (r.capture s).1.answer? = some answer ∧
      (next answer).play r horizon time' (r.capture s).2 = (.finished t a, s') := by
  rw [play] at h
  split at h
  · rename_i answer s₁ hc
    exact ⟨answer, time, by rw [hc]; rfl, by rw [hc]; exact h⟩
  · rename_i delay answer s₁ hc
    split at h
    · exact ⟨answer, time + delay, by rw [hc]; rfl, by rw [hc]; exact h⟩
    · cases h
  · cases h
  · cases h

theorem play_advance_finished {next : Except Failure Unit → Script α}
    (h : (advance next).play r horizon time s = (.finished t a, s')) : ∃ answer time',
      (r.advance s).1.answer? = some answer ∧
      (next answer).play r horizon time' (r.advance s).2 = (.finished t a, s') := by
  rw [play] at h
  split at h
  · rename_i answer s₁ hc
    exact ⟨answer, time, by rw [hc]; rfl, by rw [hc]; exact h⟩
  · rename_i delay answer s₁ hc
    split at h
    · exact ⟨answer, time + delay, by rw [hc]; rfl, by rw [hc]; exact h⟩
    · cases h
  · cases h
  · cases h

theorem play_wait_finished {delay : Nat} {next : Script α}
    (h : (wait delay next).play r horizon time s = (.finished t a, s')) :
    next.play r horizon (time + delay) s = (.finished t a, s') := by
  rw [play] at h
  split at h
  · exact h
  · cases h

end Script

/-! ## Rounds -/

/-- A round of a detection run: the frame that was captured and what was found in it. -/
structure Round where
  frame? : Option Frame
  found : List Region

/-- The partners go through a round with a number. Without a frame nothing is looked at; a frame is looked at
once, under the number of the round. -/
inductive Round.Played (r : Remote σ) (cycle : Nat) : Round → σ → σ → Prop
  | blank {s : σ} (hcapture : (r.capture s).1.answer? = some (.ok none)) :
      Played r cycle ⟨none, []⟩ s (r.capture s).2
  | seen {s s' : σ} {frame : Frame} {found : List Region}
      (hcapture : (r.capture s).1.answer? = some (.ok (some frame)))
      (hdetect : r.detect frame cycle (r.capture s).2 = (.ok found, s')) :
      Played r cycle ⟨some frame, found⟩ s s'

/-- A round is determined by the state in which it begins. -/
theorem Round.Played.unique {cycle : Nat} {x y : Round} (hx : x.Played r cycle s s₁)
    (hy : y.Played r cycle s s₂) : x = y ∧ s₁ = s₂ := by
  cases hx with
  | blank hc =>
    cases hy with
    | blank => exact ⟨rfl, rfl⟩
    | seen hc' => cases hc.symm.trans hc'
  | seen hc hd =>
    cases hy with
    | blank hc' => cases hc.symm.trans hc'
    | seen hc' hd' =>
      cases hc.symm.trans hc'
      cases hd.symm.trans hd'
      exact ⟨rfl, rfl⟩

namespace Survey

/-- The partners go through rounds, the first of which has the number `cycle`. The next window is brought to
the front between two rounds, and not after the last one. -/
inductive Course (r : Remote σ) : Nat → List Round → σ → σ → Prop
  | nil {cycle : Nat} {s : σ} : Course r cycle [] s s
  | last {cycle : Nat} {x : Round} {s s' : σ} (hx : x.Played r cycle s s') : Course r cycle [x] s s'
  | next {cycle : Nat} {x y : Round} {xs : List Round} {s s₁ s' : σ} (hx : x.Played r cycle s s₁)
      (hadvance : (r.advance s₁).1.answer? = some (.ok ()))
      (hrest : Course r (cycle + 1) (y :: xs) (r.advance s₁).2 s') : Course r cycle (x :: y :: xs) s s'

variable {cycle : Nat} {xs ys : List Round}

/-- A number of rounds can be gone through in one way only. -/
theorem Course.unique (hx : Course r cycle xs s s₁) (hy : Course r cycle ys s s₂)
    (hlength : xs.length = ys.length) : xs = ys ∧ s₁ = s₂ := by
  induction hx generalizing ys s₂ with
  | nil =>
    cases hy with
    | nil => exact ⟨rfl, rfl⟩
    | last | next => simp at hlength
  | last hx =>
    cases hy with
    | nil | next => simp at hlength
    | last hy =>
      obtain ⟨rfl, rfl⟩ := hx.unique hy
      exact ⟨rfl, rfl⟩
  | next hx _ _ ih =>
    cases hy with
    | nil | last => simp at hlength
    | next hy _ hrest =>
      obtain ⟨rfl, rfl⟩ := hx.unique hy
      obtain ⟨hxs, rfl⟩ := ih hrest (by simpa using hlength)
      exact ⟨by rw [hxs], rfl⟩

/-- Every round of a course was played under its number. -/
theorem Course.played (h : Course r cycle xs s s') {k : Nat} {x : Round} (hx : xs[k]? = some x) :
    ∃ s₁ s₂, x.Played r (cycle + k) s₁ s₂ := by
  induction h generalizing k with
  | nil => cases hx
  | last hy =>
    cases k with
    | zero =>
      cases hx
      exact ⟨_, _, hy⟩
    | succ k => cases hx
  | @next cycle _ _ _ _ _ _ hy _ _ ih =>
    cases k with
    | zero =>
      cases hx
      exact ⟨_, _, hy⟩
    | succ k =>
      rw [Nat.add_comm k 1, ← Nat.add_assoc]
      exact ih hx

/-! ## The result of a run -/

/-- What follows a round: the end, or a switch, a wait and the other rounds. -/
def afterRound (settle remaining cycle : Nat) (roster : Roster) : Script Found :=
  if remaining = 0 then .done (.ok roster.finish)
  else .advance fun
    | .error failure => .done (.error failure.duringDetection)
    | .ok () => .wait settle (rounds settle remaining (cycle + 1) roster)

theorem rounds_succ (settle remaining cycle : Nat) (roster : Roster) :
    rounds settle (remaining + 1) cycle roster = .capture fun
      | .error failure => .done (.error failure.duringDetection)
      | .ok none => afterRound settle remaining cycle roster
      | .ok (some frame) => .detect frame cycle fun
        | .error complaint =>
          .done (.error (.detection ("detector task failed: " ++ crashReport complaint)))
        | .ok found => afterRound settle remaining cycle (roster.insertAll found).2 := rfl

/-- Rounds that were played to a result have a course, and the result is what the roster shows after all that
was found in it. -/
theorem course_of_play {settle remaining : Nat} {roster : Roster} {horizon : Option Nat}
    {time t : Nat} {shown : List Region}
    (h : (rounds settle remaining cycle roster).play r horizon time s = (.finished t (.ok shown), s')) :
    ∃ xs, xs.length = remaining ∧ Course r cycle xs s s' ∧
      shown = (roster.insertAll (xs.flatMap Round.found)).2.finish := by
  induction remaining generalizing cycle roster time s with
  | zero =>
    cases h
    exact ⟨[], rfl, .nil, rfl⟩
  | succ remaining ih =>
    have goOn {roster' : Roster} {time : Nat} {x : Round} {s₁ : σ} (hx : x.Played r cycle s s₁)
        (hroster : roster' = (roster.insertAll x.found).2)
        (hplay : (afterRound settle remaining cycle roster').play r horizon time s₁ =
          (.finished t (.ok shown), s')) :
        ∃ xs, xs.length = remaining + 1 ∧ Course r cycle xs s s' ∧
          shown = (roster.insertAll (xs.flatMap Round.found)).2.finish := by
      by_cases hr : remaining = 0
      · rw [afterRound, if_pos hr] at hplay
        cases hplay
        exact ⟨[x], by simp [hr], .last hx, by simp [hroster]⟩
      · rw [afterRound, if_neg hr] at hplay
        obtain ⟨answer, time', ha, hplay⟩ := Script.play_advance_finished hplay
        cases answer with
        | error failure => cases hplay
        | ok =>
          obtain ⟨xs, hlength, hcourse, hshown⟩ := ih (Script.play_wait_finished hplay)
          cases xs with
          | nil => exact absurd hlength.symm hr
          | cons y xs =>
            refine ⟨x :: y :: xs, by simp_all, .next hx ha hcourse, ?_⟩
            rw [hshown, hroster, ← Roster.insertAll_append, ← List.flatMap_cons]
    rw [rounds_succ] at h
    obtain ⟨answer, time', hc, h⟩ := Script.play_capture_finished h
    cases answer with
    | error failure => cases h
    | ok frame? =>
      cases frame? with
      | none => exact goOn (.blank hc) rfl h
      | some frame =>
        rw [Script.play] at h
        generalize hd : r.detect frame cycle (r.capture s).2 = d at h
        obtain ⟨result, s₁⟩ := d
        cases result with
        | error complaint => cases h
        | ok found => exact goOn (.seen hc hd) rfl h

/-- A run with a result has a course with as many rounds as were asked for. -/
theorem course_of_run {settings : CyclingSettings} {start time : Nat} {shown : List Region}
    (h : run r settings start s = (.returned time (.ok shown), s')) :
    ∃ xs, xs.length = settings.maxAttempts ∧ Course r 0 xs s s' ∧
      shown = Region.arrange (Region.firsts (xs.flatMap Round.found)) := by
  rw [run] at h
  generalize hp : (script settings).play r (some (start + budget settings)) start s = p at h
  obtain ⟨progress, s₁⟩ := p
  obtain ⟨he, rfl⟩ := Prod.mk.inj h
  cases progress with
  | finished t result =>
    cases he
    obtain ⟨xs, hlength, hcourse, hshown⟩ := course_of_play hp
    exact ⟨xs, hlength, hcourse, by rw [hshown, Roster.finish, Roster.regions_insertAll_empty]⟩
  | due => cases he
  | stalled => cases he
  | crashed => cases he

/-- The result of a run is the stable sort, from large to small, of the first sightings that are not small.
So no window is shown twice, none that was not seen, and none is lost for which the first sighting counts. -/
theorem run_shows_first_sightings {settings : CyclingSettings} {start time : Nat} {shown : List Region}
    (h : run r settings start s = (.returned time (.ok shown), s')) :
    (∃ xs, xs.length = settings.maxAttempts ∧ Course r 0 xs s s') ∧
    ∀ xs s₁, xs.length = settings.maxAttempts → Course r 0 xs s s₁ →
      (∀ other, Region.Arranged (Region.firsts (xs.flatMap Round.found)) other ↔ other = shown) ∧
      (shown.Pairwise fun a b => a.key ≠ b.key) ∧
      (∀ x ∈ shown, x.category ≠ .small ∧ ∃ y ∈ xs, x ∈ y.found) ∧
      ∀ x ∈ Region.firsts (xs.flatMap Round.found), x.category ≠ .small → x ∈ shown := by
  obtain ⟨xs, hlength, hcourse, rfl⟩ := course_of_run h
  refine ⟨⟨xs, hlength, hcourse⟩, fun ys s₁ hlength' hcourse' => ?_⟩
  obtain ⟨rfl, -⟩ := hcourse.unique hcourse' (hlength.trans hlength'.symm)
  refine ⟨fun other => Region.arranged_iff, Region.pairwise_arrange (Region.pairwise_firsts _),
    fun x hx => ?_, fun x hx hsmall => Region.mem_arrange.2 ⟨hx, hsmall⟩⟩
  obtain ⟨hfirst, hsmall⟩ := Region.mem_arrange.1 hx
  exact ⟨hsmall, List.mem_flatMap.1 (Region.mem_of_mem_firsts hfirst)⟩

/-! ### A rehearsed run -/

namespace Rehearsed

/-- A large window, seen again in the last round with bounds that differ in their fractions. -/
def broad : Region := ⟨⟨0.5, 0.0, 300.0, 200.25⟩, 2, #[1], .large⟩

def broadAgain : Region := ⟨⟨0.0, 0.0, 300.0, 200.0⟩, 3, #[1], .large⟩

def speck : Region := ⟨⟨10.0, 0.0, 20.0, 20.0⟩, 0, #[1], .small⟩

/-- Two windows of one category and one area. -/
def flat : Region := ⟨⟨5.0, 0.0, 100.0, 80.0⟩, 0, #[1], .medium⟩

def tall : Region := ⟨⟨400.0, 0.0, 80.0, 100.0⟩, 2, #[1], .medium⟩

/-- Nothing can be captured in the second of four rounds. -/
def rehearsal : Rehearsal where
  captures := [.now (.ok (some Rehearsal.blankFrame)), .now (.ok none),
    .after 10 (.ok (some Rehearsal.blankFrame))]
  regions := [(0, [flat, speck]), (2, [tall, broad, flat]), (3, [broadAgain])]

def settings : CyclingSettings := { maxAttempts := 4 }

def rounds : List Round :=
  [⟨some Rehearsal.blankFrame, [flat, speck]⟩, ⟨none, []⟩,
    ⟨some Rehearsal.blankFrame, [tall, broad, flat.withCycle 2]⟩,
    ⟨some Rehearsal.blankFrame, [broadAgain]⟩]

theorem course : Course rehearsal.remote 0 rounds {} ⟨4, 3, false⟩ :=
  .next (.seen rfl rfl) rfl (.next (.blank rfl) rfl (.next (.seen rfl rfl) rfl (.last (.seen rfl rfl))))

theorem firsts_rounds : Region.firsts (rounds.flatMap Round.found) = [flat, speck, tall, broad] := by
  have hflat : flat.key = ⟨5, 0, 100, 80⟩ := by decide +kernel
  have hspeck : speck.key = ⟨10, 0, 20, 20⟩ := by decide +kernel
  have htall : tall.key = ⟨400, 0, 80, 100⟩ := by decide +kernel
  have hbroad : broad.key = ⟨0, 0, 300, 200⟩ := by decide +kernel
  have hagain : broadAgain.key = ⟨0, 0, 300, 200⟩ := by decide +kernel
  have hflat' : (flat.withCycle 2).key = ⟨5, 0, 100, 80⟩ := hflat
  simp [rounds, Region.firsts, hflat, hspeck, htall, hbroad, hagain, hflat']

theorem arrange_rounds : Region.arrange [flat, speck, tall, broad] = [broad, flat, tall] := by
  have hworth : [flat, speck, tall, broad].filter Region.isWorth = [flat, tall, broad] := rfl
  have hflat : flat.showsBefore tall = true := by decide +kernel
  have hbroad : flat.showsBefore broad = false := by decide +kernel
  show List.mergeSort ([flat, speck, tall, broad].filter Region.isWorth) Region.showsBefore = _
  rw [hworth]
  simp [List.mergeSort, List.MergeSort.Internal.splitInTwo, hflat, hbroad]

theorem run_rehearsal : run rehearsal.remote settings 0 {} =
    (.returned 7520 (.ok [broad, flat, tall]), ⟨4, 3, false⟩) := by
  have hshown : (Roster.empty.insertAll (rounds.flatMap Round.found)).2.finish =
      [broad, flat, tall] := by
    rw [Roster.finish, Roster.regions_insertAll_empty, firsts_rounds, arrange_rounds]
  rw [← hshown]
  rfl

end Rehearsed

/-- The large window is shown first, though it was found last and seen twice; two windows of equal size are
shown as they were found; the small one is not shown. -/
theorem rehearsed_run_shows_first_sightings :
    run Rehearsed.rehearsal.remote Rehearsed.settings 0 {} =
      (.returned 7520 (.ok [Rehearsed.broad, Rehearsed.flat, Rehearsed.tall]), ⟨4, 3, false⟩) ∧
    Course Rehearsed.rehearsal.remote 0 Rehearsed.rounds {} ⟨4, 3, false⟩ ∧
    Region.Arranged (Region.firsts (Rehearsed.rounds.flatMap Round.found))
      [Rehearsed.broad, Rehearsed.flat, Rehearsed.tall] := by
  obtain ⟨-, hshown⟩ := run_shows_first_sightings Rehearsed.run_rehearsal
  obtain ⟨harranged, -⟩ := hshown Rehearsed.rounds ⟨4, 3, false⟩ rfl Rehearsed.course
  exact ⟨Rehearsed.run_rehearsal, Rehearsed.course, (harranged _).2 rfl⟩

end Survey

end WindowSurvey
