import WindowSurvey.Detector
/-!
# The regions of a frame

The number of a round is written on the regions of a frame and has no other influence on them.
-/

namespace WindowSurvey

namespace Detector

variable (d : Detector)

theorem region?_withCycle (screen : Dimensions) (source : Rgba) (cycle : Nat) (b : PixelBox) :
    d.region? screen source cycle b =
      (d.region? screen source 0 b).map (Option.map (·.withCycle cycle)) := by
  rw [region?, region?]
  cases Thumbnail.render source b d.thumbnail d.library with
  | error failure => rfl
  | ok thumbnail =>
    cases hrect : b.toRect? with
    | error failure => rfl
    | ok bounds =>
      by_cases hempty : thumbnail.isEmpty <;>
        simp [Region.of?, hempty, bind, Except.bind, pure, Except.pure, Except.map, Region.withCycle]

theorem regions_withCycle (screen : Dimensions) (source : Rgba) (cycle : Nat) (bs : List PixelBox) :
    bs.mapM (d.region? screen source cycle) =
      (bs.mapM (d.region? screen source 0)).map (List.map (Option.map (·.withCycle cycle))) := by
  induction bs with
  | nil => rfl
  | cons b bs ih =>
    rw [List.mapM_cons, List.mapM_cons, ih, region?_withCycle d screen source cycle b]
    cases d.region? screen source 0 b with
    | error failure => rfl
    | ok region =>
      cases bs.mapM (d.region? screen source 0) <;> rfl

theorem detect?_withCycle (frame : Frame) (cycle : Nat) :
    d.detect? frame cycle = (d.detect? frame 0).map (List.map (·.withCycle cycle)) := by
  rw [detect?, detect?]
  cases frame.luminance with
  | error failure => rfl
  | ok g =>
    simp only [bind, Except.bind]
    cases d.boxes frame.dimensions g with
    | nil => rfl
    | cons b bs =>
      simp only
      cases frame.toRgba with
      | error failure => rfl
      | ok source =>
        simp only [regions_withCycle d frame.dimensions source cycle]
        cases (b :: bs).mapM (d.region? frame.dimensions source 0) with
        | error failure => rfl
        | ok regions =>
          simp [Except.map, pure, Except.pure, List.filterMap_map, List.map_filterMap]

/-- The regions found in a round are those of any other round, with the round's own number. -/
theorem detect_withCycle (frame : Frame) (cycle : Nat) :
    d.detect frame cycle = (d.detect frame 0).map (·.withCycle cycle) := by
  rw [detect, detect, detect?_withCycle]
  cases d.detect? frame 0 <;> rfl

theorem cycle_of_mem_detect {frame : Frame} {cycle : Nat} {x : Region}
    (h : x ∈ d.detect frame cycle) : x.cycle = cycle := by
  rw [detect_withCycle] at h
  obtain ⟨y, -, rfl⟩ := List.mem_map.1 h
  rfl

end Detector

end WindowSurvey
