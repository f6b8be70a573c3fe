import WindowSurvey.Phase.System
/-!
# The table of the window flow

The flow as its user knows it: the six fields of a snapshot and at most one piece of work whose outcome is
awaited. There are no generations and no tasks here. A row of the table fires or nothing happens; leaving
the flow and starting anew forget the work that is awaited, and only the outcome of awaited work fires a
row for outcomes. Work goes by the number of the call that asked for it.

## Main definitions

* `Flow`, `Stimulus` — the state of the table, and what may happen to it
* `Flow.react?` — the rows
* `Flow.run`, `Flow.snapshots`, `Flow.notes`, `Flow.verdicts` — what a series of stimuli leads to
* `Snapshot.Sound`, `Flow.Sound` — what the rows keep
-/

namespace WindowSurvey

/-- Work whose outcome may be awaited. -/
inductive Work where
  | detection
  | navigation (index : Nat)
  deriving DecidableEq, Repr, Inhabited

/-- The work that a job does, without how it is done. -/
def Job.work : Job → Work
  | detection => .detection
  | navigation index _ => .navigation index

/-- What is known, and the work whose outcome is awaited. -/
structure Flow where
  snapshot : Snapshot := {}
  awaited : Option (CallId × Work) := none

/-- What may happen to a flow. -/
inductive Stimulus where
  /-- A command is given; a call that it makes has the number `id`. -/
  | command (id : CallId) (command : Command)
  /-- The work that a call asked for comes to an end. -/
  | outcome (id : CallId) (outcome : Outcome)
  /-- Nothing that a user could notice. -/
  | nothing

namespace Command

/-- Whether a command makes a call, which is answered whether the command is accepted or not. -/
def isCall : Command → Bool
  | start => true
  | restart => true
  | navigate _ => true
  | select _ => false
  | exit => false

/-- Whether a command gives up the awaited work, in any phase. -/
def supersedes : Command → Bool
  | restart => true
  | exit => true
  | start => false
  | select _ => false
  | navigate _ => false

end Command

namespace Flow

/-! ## The rows -/

/-- The beginning of a detection run. -/
def detecting (id : CallId) : Flow where
  snapshot := { phase := .detecting, processing := true }
  awaited := some (id, .detection)

/-- The rows for commands. -/
def command? (f : Flow) (id : CallId) : Command → Option Flow
  | .start => if f.snapshot.phase = .normal then some (detecting id) else none
  | .restart => some (detecting id)
  | .select regions =>
    if f.snapshot.phase = .selecting then
      if regions.isEmpty then
        some { f with snapshot := { errorMessage := Failure.emptySelection.message } }
      else
        some { f with snapshot :=
          { f.snapshot with phase := .navigating, selected := regions, currentIndex := 0 } }
    else none
  | .navigate index =>
    if f.snapshot.phase = .navigating ∧ f.snapshot.processing = false
        ∧ index < f.snapshot.selected.length then
      some {
        snapshot := { f.snapshot with processing := true, errorMessage := "" }
        awaited := some (id, .navigation index) }
    else none
  | .exit => some {}

/-- The snapshot after the end of some work. -/
def ended? (s : Snapshot) : Work → Outcome → Option Snapshot
  | .detection, .detected (.ok []) =>
    some { errorMessage := Failure.emptyDetectionResult.message }
  | .detection, .detected (.ok (region :: regions)) =>
    some { phase := .selecting, detected := region :: regions }
  | .detection, .detected (.error failure) => some { errorMessage := failure.message }
  | .navigation index, .switched _ (.ok ()) =>
    some { s with processing := false, currentIndex := index }
  | .navigation _, .switched _ (.error failure) =>
    some { s with processing := false, errorMessage := failure.message }
  | _, _ => none

/-- The rows for outcomes, which fire for awaited work only. -/
def outcome? (f : Flow) (id : CallId) (o : Outcome) : Option Flow :=
  match f.awaited with
  | some (awaited, work) =>
    if awaited = id then (ended? f.snapshot work o).map fun snapshot => { snapshot } else none
  | none => none

/-- The row that fires, if there is one. -/
def react? (f : Flow) : Stimulus → Option Flow
  | .command id command => f.command? id command
  | .outcome id o => f.outcome? id o
  | .nothing => none

/-! ## Series of stimuli -/

/-- The flow after a stimulus. -/
def after (f : Flow) (x : Stimulus) : Flow := (f.react? x).getD f

/-- The flow after many. -/
def run (f : Flow) (xs : List Stimulus) : Flow := xs.foldl after f

/-- The snapshots from the first on, one after each stimulus. -/
def snapshots (f : Flow) : List Stimulus → List Snapshot
  | [] => [f.snapshot]
  | x :: xs => f.snapshot :: (f.after x).snapshots xs

/-- What those who watch are told of a stimulus: when a row fires, all of them what is known then. -/
def told (f : Flow) (watching : List ObserverId) (x : Stimulus) : List (ObserverId × Snapshot) :=
  match f.react? x with
  | some f' => watching.map (·, f'.snapshot)
  | none => []

/-- What observers are told when each stimulus comes with those who watch at that moment. -/
def notes (f : Flow) : List (List ObserverId × Stimulus) → List (ObserverId × Snapshot)
  | [] => []
  | (watching, x) :: xs => f.told watching x ++ (f.after x).notes xs

/-- Whether a command that makes a call is accepted. -/
def verdict (f : Flow) : Stimulus → List Bool
  | .command id command => if command.isCall then [(f.command? id command).isSome] else []
  | _ => []

/-- Which calls are accepted, in the order of the calls. -/
def verdicts (f : Flow) : List Stimulus → List Bool
  | [] => []
  | x :: xs => f.verdict x ++ (f.after x).verdicts xs

/-- Whether a stimulus is the end of the work that a call asked for, and fires a row. -/
def applies (f : Flow) (id : CallId) : Stimulus → Bool
  | .outcome k o => k == id && (f.outcome? k o).isSome
  | _ => false

/-- How often the end of the work that a call asked for fires a row. -/
def applied (f : Flow) (id : CallId) : List Stimulus → Nat
  | [] => 0
  | x :: xs => (f.applies id x).toNat + (f.after x).applied id xs

end Flow

/-! ## What the rows keep -/

/-- The fields agree with the phase; while the user switches between windows there are windows that were
found, and nothing is reported while work is going on. -/
structure Snapshot.Sound (s : Snapshot) : Prop where
  consistent : s.isConsistent = true
  found : s.phase = .navigating → s.detected ≠ []
  quiet : s.processing = true → s.errorMessage = ""

namespace Flow

/-- The snapshot is sound, and it fits the work that is awaited. -/
structure Sound (f : Flow) : Prop where
  snapshot : f.snapshot.Sound
  idle : f.awaited = none → f.snapshot.processing = false
  detecting : ∀ id, f.awaited = some (id, .detection) → f.snapshot.phase = .detecting
  navigating : ∀ id index, f.awaited = some (id, .navigation index) →
    f.snapshot.phase = .navigating ∧ f.snapshot.processing = true ∧
      index < f.snapshot.selected.length

end Flow

namespace Snapshot

theorem Sound.processing_of_detecting {s : Snapshot} (h : s.Sound) (hp : s.phase = .detecting) :
    s.processing = true := by
  have hc := h.consistent
  simp only [isConsistent, hp, Bool.and_eq_true] at hc
  exact hc.1.2

theorem Sound.not_processing_of_normal {s : Snapshot} (h : s.Sound) (hp : s.phase = .normal) :
    s.processing = false := by
  have hc := h.consistent
  simp only [isConsistent, hp, Bool.and_eq_true, Bool.not_eq_true'] at hc
  exact hc.2

theorem Sound.of_selecting {s : Snapshot} (h : s.Sound) (hp : s.phase = .selecting) :
    s.processing = false ∧ s.detected ≠ [] := by
  have hc := h.consistent
  simp only [isConsistent, hp, Bool.and_eq_true, Bool.not_eq_true', List.isEmpty_eq_false_iff] at hc
  exact ⟨hc.1.2, hc.1.1.2⟩

theorem Sound.index_lt {s : Snapshot} (h : s.Sound) (hp : s.phase = .navigating) :
    s.currentIndex < s.selected.length := by
  have hc := h.consistent
  simpa only [isConsistent, hp, decide_eq_true_eq] using hc

/-- A snapshot of the plain view, whatever its message says. -/
theorem sound_message (message : String) : Sound { errorMessage := message } where
  consistent := rfl
  found h := by cases h
  quiet h := by cases h

theorem sound_detecting : Sound { phase := .detecting, processing := true } where
  consistent := rfl
  found h := by cases h
  quiet _ := rfl

theorem sound_selecting (region : Region) (regions : List Region) :
    Sound { phase := .selecting, detected := region :: regions } where
  consistent := rfl
  found h := by cases h
  quiet _ := rfl

theorem sound_navigating {s : Snapshot} (hp : s.phase = .navigating)
    (hi : s.currentIndex < s.selected.length) (hf : s.detected ≠ [])
    (hq : s.processing = true → s.errorMessage = "") : s.Sound where
  consistent := by simpa only [isConsistent, hp, decide_eq_true_eq] using hi
  found _ := hf
  quiet := hq

end Snapshot

namespace Flow

theorem sound_init : Sound {} where
  snapshot := Snapshot.sound_message ""
  idle _ := rfl
  detecting _ h := by cases h
  navigating _ _ h := by cases h

theorem sound_of_idle {s : Snapshot} (h : s.Sound) (hp : s.processing = false) :
    Sound { snapshot := s } where
  snapshot := h
  idle _ := hp
  detecting _ h := by cases h
  navigating _ _ h := by cases h

theorem sound_detecting (id : CallId) : (Flow.detecting id).Sound where
  snapshot := Snapshot.sound_detecting
  idle h := by cases h
  detecting _ _ := rfl
  navigating _ _ h := by cases h

variable {f f' : Flow}

/-- Work is awaited exactly while something is going on. -/
theorem Sound.processing_iff (h : f.Sound) :
    f.snapshot.processing = true ↔ ∃ id work, f.awaited = some (id, work) := by
  constructor
  · intro hp
    cases ha : f.awaited with
    | none => rw [h.idle ha] at hp; cases hp
    | some a => exact ⟨a.1, a.2, rfl⟩
  · rintro ⟨id, work, ha⟩
    cases work with
    | detection => exact h.snapshot.processing_of_detecting (h.detecting id ha)
    | navigation index => exact (h.navigating id index ha).2.1

theorem Sound.awaited_eq_none (h : f.Sound) (hp : f.snapshot.processing = false) :
    f.awaited = none := by
  cases ha : f.awaited with
  | none => rfl
  | some a =>
    rw [h.processing_iff.2 ⟨a.1, a.2, ha⟩] at hp
    cases hp

/-- While work is awaited, only a command that forgets it has a row. -/
theorem Sound.command?_eq_none (h : f.Sound) {id : CallId} {work : Work}
    (ha : f.awaited = some (id, work)) (k : CallId) {command : Command}
    (hc : command.supersedes = false) : f.command? k command = none := by
  have hp : f.snapshot.processing = true := h.processing_iff.2 ⟨id, work, ha⟩
  cases command with
  | start =>
    have hn : f.snapshot.phase ≠ .normal := fun hn => by
      rw [h.snapshot.not_processing_of_normal hn] at hp; cases hp
    simp only [command?, if_neg hn]
  | select regions =>
    have hn : f.snapshot.phase ≠ .selecting := fun hn => by
      rw [(h.snapshot.of_selecting hn).1] at hp; cases hp
    simp only [command?, if_neg hn]
  | navigate index => simp [command?, hp]
  | restart => cases hc
  | exit => cases hc

theorem Sound.command (h : f.Sound) {id : CallId} {command : Command}
    (hr : f.command? id command = some f') : f'.Sound := by
  cases command with
  | start =>
    simp only [command?, Option.ite_none_right_eq_some, Option.some.injEq] at hr
    obtain ⟨-, rfl⟩ := hr
    exact sound_detecting id
  | restart =>
    cases hr
    exact sound_detecting id
  | select regions =>
    simp only [command?, Option.ite_none_right_eq_some] at hr
    obtain ⟨hp, hr⟩ := hr
    obtain ⟨hq, hd⟩ := h.snapshot.of_selecting hp
    have ha : f.awaited = none := h.awaited_eq_none hq
    rcases regions with _ | ⟨region, regions⟩
    · cases hr
      rw [ha]
      exact sound_of_idle (Snapshot.sound_message _) rfl
    · cases hr
      rw [ha]
      refine sound_of_idle (Snapshot.sound_navigating rfl (Nat.zero_lt_succ _) hd ?_) hq
      intro hb
      rw [hq] at hb
      cases hb
  | navigate index =>
    simp only [command?, Option.ite_none_right_eq_some, Option.some.injEq] at hr
    obtain ⟨⟨hp, -, hi⟩, rfl⟩ := hr
    exact {
      snapshot := Snapshot.sound_navigating hp (h.snapshot.index_lt hp) (h.snapshot.found hp)
        fun _ => rfl
      idle := fun e => by cases e
      detecting := fun _ e => by cases e
      navigating := fun _ _ e => by cases e; exact ⟨hp, rfl, hi⟩ }
  | exit =>
    cases hr
    exact sound_init

theorem Sound.outcome (h : f.Sound) {id : CallId} {o : Outcome}
    (hr : f.outcome? id o = some f') : f'.Sound := by
  rw [outcome?] at hr
  split at hr
  · rename_i k work ha
    simp only [Option.ite_none_right_eq_some, Option.map_eq_some_iff] at hr
    obtain ⟨-, s, hs, rfl⟩ := hr
    cases work with
    | detection =>
      rcases o with (failure | ⟨_ | ⟨region, regions⟩⟩) | ⟨_, _⟩
      · cases hs
        exact sound_of_idle (Snapshot.sound_message _) rfl
      · cases hs
        exact sound_of_idle (Snapshot.sound_message _) rfl
      · cases hs
        exact sound_of_idle (Snapshot.sound_selecting region regions) rfl
      · cases hs
    | navigation index =>
      obtain ⟨hp, -, hi⟩ := h.navigating k index ha
      rcases o with _ | ⟨_, failure | ⟨⟩⟩
      · cases hs
      · cases hs
        exact sound_of_idle (Snapshot.sound_navigating hp (h.snapshot.index_lt hp)
          (h.snapshot.found hp) fun e => by cases e) rfl
      · cases hs
        exact sound_of_idle (Snapshot.sound_navigating hp hi (h.snapshot.found hp)
          fun e => by cases e) rfl
  · cases hr

/-- Every row keeps a flow sound. -/
theorem Sound.react (h : f.Sound) {x : Stimulus} (hr : f.react? x = some f') : f'.Sound := by
  cases x with
  | command id command => exact h.command hr
  | outcome id o => exact h.outcome hr
  | nothing => cases hr

theorem Sound.after (h : f.Sound) (x : Stimulus) : (f.after x).Sound := by
  rw [Flow.after]
  cases hr : f.react? x with
  | none => exact h
  | some f' => exact h.react hr

/-- Nothing is awaited any more when the end of the awaited work was applied. -/
theorem awaited_of_applies {id : CallId} {x : Stimulus} (h : f.applies id x = true) :
    (f.after x).awaited = none := by
  cases x with
  | outcome k o =>
    simp only [applies, Bool.and_eq_true] at h
    obtain ⟨f', hr⟩ := Option.isSome_iff_exists.1 h.2
    rw [Flow.after, react?, hr, Option.getD_some]
    rw [outcome?] at hr
    split at hr
    · simp only [Option.ite_none_right_eq_some, Option.map_eq_some_iff] at hr
      obtain ⟨-, snapshot, -, rfl⟩ := hr
      rfl
    · cases hr
  | command k command => cases h
  | nothing => cases h

theorem applied_append (f : Flow) (id : CallId) (xs ys : List Stimulus) :
    f.applied id (xs ++ ys) = f.applied id xs + (f.run xs).applied id ys := by
  induction xs generalizing f with
  | nil => exact (Nat.zero_add _).symm
  | cons x xs ih =>
    rw [List.cons_append, applied, applied, ih, ← Nat.add_assoc]
    rfl

end Flow

end WindowSurvey
