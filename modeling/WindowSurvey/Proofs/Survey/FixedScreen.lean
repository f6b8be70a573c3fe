import WindowSurvey.Proofs.Detector.Frames
import WindowSurvey.Proofs.Detector.Regions
import WindowSurvey.Proofs.Survey.Saturation
/-!
# Runs on a screen of one size

While the screen keeps its size, the key of a region is its box, and the box decides the category. So an early
sighting cannot hide a later one that would have been shown, and the order of categories is one of areas.

## Main definitions

* `Detector.Reports` — a box that is found in a frame, with its category
* `Region.box` — the box by which repeated sightings are recognised
* `Remote.withDetector` — a remote that a detector looks at
* `Survey.ShowsBoxes` — what a run on a screen of one size comes to
-/

namespace WindowSurvey

/-- The box, which lies in the frame, is found there under a category. -/
def Detector.Reports (d : Detector) (frame : Frame) (b : PixelBox) (category : Category) : Prop :=
  b.LiesIn frame.width frame.height ∧
    ∃ r ∈ d.detect frame 0, r.bounds = b.rect ∧ r.category = category

/-- The box by which repeated sightings of a region are recognised. -/
def Region.box (r : Region) : PixelBox :=
  ⟨r.key.left.toNat, r.key.top.toNat, r.key.width.toNat, r.key.height.toNat⟩

namespace Detector

variable (d : Detector) {frame : Frame} {screen : Dimensions} {b : PixelBox} {y : Region} {cycle : Nat}

/-- The region of a box on the screen. -/
structure Portrays (screen : Dimensions) (b : PixelBox) (y : Region) : Prop where
  liesIn : b.LiesIn screen.width screen.height
  bounds : y.bounds = b.rect
  category : y.category = d.classify (b.area / screen.area)

variable {d}

theorem portrays_of_mem_detect (hs : screen.Addressable) (hframe : frame.dimensions = screen)
    (h : y ∈ d.detect frame cycle) : ∃ b, d.Portrays screen b y := by
  subst hframe
  obtain ⟨b, hb, hrecord⟩ := d.mem_detect hs h
  simp only [Region.record, record, Prod.mk.injEq] at hrecord
  exact ⟨b, hb, hrecord.1, hrecord.2.2⟩

theorem Portrays.box_eq (h : d.Portrays screen b y) (hs : screen.Addressable) : y.box = b := by
  have hkey : y.key = ⟨b.x, b.y, b.width, b.height⟩ := by
    rw [Region.key, h.bounds, PixelBox.key_rect h.liesIn hs]
  rw [Region.box, hkey]
  rfl

theorem Portrays.key_eq (h : d.Portrays screen b y) : y.key = SightingKey.of b.rect := by
  rw [Region.key, h.bounds]

theorem Portrays.area_eq (h : d.Portrays screen b y) : y.area = b.area := by
  rw [Region.area, h.bounds]
  rfl

/-- On one screen the order of categories and areas is the order of areas. -/
theorem Portrays.area_le {z : Region} {c : PixelBox} (hy : d.Portrays screen b y)
    (hz : d.Portrays screen c z) (hs : screen.Addressable)
    (h : z.category.rank < y.category.rank ∨
      y.category = z.category ∧ Binary64.totalKey z.area ≤ Binary64.totalKey y.area) :
    z.area ≤ y.area := by
  rw [hy.area_eq, hz.area_eq] at h ⊢
  rcases h with hrank | ⟨-, hkey⟩
  · rw [hy.category, hz.category] at hrank
    exact PixelBox.area_le_of_rank_lt hz.liesIn hy.liesIn hs hrank
  · have hwy := (PixelBox.word_area_lt hy.liesIn hs).le
    have hwz := (PixelBox.word_area_lt hz.liesIn hs).le
    rw [Binary64.totalKey_eq_word hwy, Binary64.totalKey_eq_word hwz] at hkey
    exact (Binary64.le_iff_word_le hwz hwy).2 (by exact_mod_cast hkey)

/-- A box is reported in a frame when the frame has a region with its key. -/
theorem reports_iff (hs : screen.Addressable) (hframe : frame.dimensions = screen)
    {category : Category} : d.Reports frame b category ↔
      ∃ y ∈ d.detect frame cycle, d.Portrays screen b y ∧ y.category = category := by
  constructor
  · rintro ⟨hb, r, hr, hbounds, hcategory⟩
    obtain ⟨b', hb'⟩ := portrays_of_mem_detect hs hframe hr
    have heq : b' = b := by
      refine PixelBox.eq_of_key_eq hb'.liesIn ?_ hs ?_
      · subst hframe
        exact hb
      · rw [← hb'.bounds, hbounds]
    subst heq
    refine ⟨r.withCycle cycle, ?_, ⟨hb'.liesIn, hb'.bounds, hb'.category⟩, hcategory⟩
    rw [detect_withCycle]
    exact List.mem_map_of_mem hr
  · rintro ⟨y, hy, hb, hcategory⟩
    rw [detect_withCycle, List.mem_map] at hy
    obtain ⟨r, hr, rfl⟩ := hy
    subst hframe
    exact ⟨hb.liesIn, r, hr, hb.bounds, hcategory⟩

/-- On a drawn screen the boxes of the windows are reported, unless they are not accepted. -/
theorem reports_render {s : Screen} {format : PixelFormat} (hw : 0 < s.width) (hh : 0 < s.height)
    (hsize : s.dimensions.Addressable) (hformat : s.Shows format) (hstride : 2 ≤ d.settings.gridStride)
    (hthreshold : d.settings.edgeThreshold ≤ 254) (hs : s.Separate d.settings) {w : DrawnWindow}
    (hmem : w ∈ s.windows) (hw' : d.accepts s.dimensions w.box = true) :
    d.Reports (s.render format) w.box (d.classify (w.box.area / s.dimensions.area)) := by
  obtain ⟨ws, hws, hbefore⟩ := s.exists_inOrder hs
  obtain ⟨rs, hrs, hrecords⟩ :=
    detect?_render 0 hw hh hsize hformat hstride hthreshold hs hws hbefore
  have hrecord : d.record s.dimensions 0 w.box ∈ rs.map Region.record :=
    hrecords ▸ List.mem_map_of_mem (List.mem_filter.2 ⟨hws.mem_iff.2 hmem, hw'⟩)
  obtain ⟨r, hr, hrecord⟩ := List.mem_map.1 hrecord
  simp only [Region.record, record, Prod.mk.injEq] at hrecord
  have hliesIn : w.box.LiesIn s.width s.height := by
    have := (hs.traceable w hmem).right_le
    have := (hs.traceable w hmem).bottom_le
    constructor <;> simp only [DrawnWindow.box] <;> omega
  exact ⟨hliesIn, r, by rwa [detect, hrs], hrecord.1, hrecord.2.2⟩

end Detector

/-- The same remote, looked at by a detector of windows. -/
def Remote.withDetector {σ : Type} (r : Remote σ) (d : Detector) : Remote σ :=
  r.watchedBy fun frame cycle => .ok (d.detect frame cycle)

namespace Survey

variable {σ : Type} {r : Remote σ} {d : Detector} {screen : Dimensions} {xs : List Round} {s s' : σ}

/-- What is found in a round of a run with the detector. -/
theorem found_eq (hcourse : Course (r.withDetector d) 0 xs s s') {k : Nat} {x : Round}
    (hx : xs[k]? = some x) :
    x = ⟨none, []⟩ ∨ ∃ frame, x = ⟨some frame, d.detect frame k⟩ := by
  obtain ⟨s₁, s₂, hplayed⟩ := hcourse.played hx
  rw [Nat.zero_add] at hplayed
  cases hplayed with
  | blank => exact .inl rfl
  | seen _ hdetect =>
    cases hdetect
    exact .inr ⟨_, rfl⟩

/-- Every region found on a screen of one size is that of a box on it. -/
theorem portrays_of_mem_found (hs : screen.Addressable)
    (hcourse : Course (r.withDetector d) 0 xs s s')
    (hframes : ∀ x ∈ xs, ∀ frame, x.frame? = some frame → frame.dimensions = screen)
    {y : Region} (hy : y ∈ xs.flatMap Round.found) : d.Portrays screen y.box y := by
  obtain ⟨x, hx, hy⟩ := List.mem_flatMap.1 hy
  obtain ⟨k, hk⟩ := List.mem_iff_getElem?.1 hx
  rcases found_eq hcourse hk with rfl | ⟨frame, rfl⟩
  · cases hy
  · obtain ⟨b, hb⟩ := Detector.portrays_of_mem_detect hs (hframes _ hx frame rfl) hy
    rwa [hb.box_eq hs]

/-- A first sighting was made in the round whose number it carries, and its box is reported in no frame
before. -/
theorem first_round (hs : screen.Addressable) (hcourse : Course (r.withDetector d) 0 xs s s')
    (hframes : ∀ x ∈ xs, ∀ frame, x.frame? = some frame → frame.dimensions = screen)
    {y : Region} (hy : y ∈ Region.firsts (xs.flatMap Round.found)) :
    (∃ x frame, xs[y.cycle]? = some x ∧ x.frame? = some frame ∧ d.Reports frame y.box y.category) ∧
      ∀ j x frame, j < y.cycle → xs[j]? = some x → x.frame? = some frame →
        ∀ category, ¬ d.Reports frame y.box category := by
  have hportrays := portrays_of_mem_found hs hcourse hframes (Region.mem_of_mem_firsts hy)
  rw [List.flatMap_def] at hy
  obtain ⟨k, found, hk, hmem, hbefore⟩ := Region.mem_firsts_flatten hy
  rw [List.getElem?_map, Option.map_eq_some_iff] at hk
  obtain ⟨x, hx, rfl⟩ := hk
  rcases found_eq hcourse hx with rfl | ⟨frame, rfl⟩
  · cases hmem
  · cases d.cycle_of_mem_detect hmem
    have hframe := hframes _ (List.mem_of_getElem? hx) frame rfl
    refine ⟨⟨_, frame, hx, rfl, (Detector.reports_iff hs hframe).2 ⟨y, hmem, hportrays, rfl⟩⟩, ?_⟩
    intro j x' frame' hj hx' hframe' category hreports
    rcases found_eq hcourse hx' with rfl | ⟨frame'', rfl⟩
    · cases hframe'
    · cases hframe'
      have hscreen := hframes _ (List.mem_of_getElem? hx') frame' rfl
      obtain ⟨z, hz, hzb, -⟩ := (Detector.reports_iff hs hscreen).1 hreports
      have hnone := hbefore j _ hj (by rw [List.getElem?_map, hx']; rfl)
      rw [Bool.eq_false_iff] at hnone
      exact hnone (Region.keyIn_iff.2 ⟨z, hz, hzb.key_eq.trans hportrays.key_eq.symm⟩)

/-- A box is the box of a first sighting when a frame has it. -/
theorem exists_first_of_reports (hs : screen.Addressable)
    (hcourse : Course (r.withDetector d) 0 xs s s')
    (hframes : ∀ x ∈ xs, ∀ frame, x.frame? = some frame → frame.dimensions = screen)
    {x : Round} (hx : x ∈ xs) {frame : Frame} (hframe : x.frame? = some frame) {b : PixelBox}
    {category : Category} (h : d.Reports frame b category) :
    ∃ y ∈ Region.firsts (xs.flatMap Round.found), y.box = b ∧ y.category = category := by
  have hscreen := hframes x hx frame hframe
  obtain ⟨k, hk⟩ := List.mem_iff_getElem?.1 hx
  obtain ⟨y, hy, hyb, hcategory⟩ := (Detector.reports_iff hs hscreen).1 h
  have hfound : y ∈ x.found := by
    rcases found_eq hcourse hk with rfl | ⟨frame', rfl⟩
    · cases hframe
    · cases hframe
      exact hy
  have hkey : Region.keyIn (Region.firsts (xs.flatMap Round.found)) y.key = true := by
    rw [Region.keyIn_firsts, Region.keyIn_iff]
    exact ⟨y, List.mem_flatMap.2 ⟨x, hx, hfound⟩, rfl⟩
  obtain ⟨z, hz, hzy⟩ := Region.keyIn_iff.1 hkey
  have hzb := portrays_of_mem_found hs hcourse hframes (Region.mem_of_mem_firsts hz)
  have hbox : z.box = b := by
    rw [← hyb.box_eq hs, Region.box, Region.box, hzy]
  refine ⟨z, hz, hbox, ?_⟩
  rw [hzb.category, hbox, ← hyb.category, hcategory]

/-- Every region shown is a first sighting of a box on the screen. -/
theorem portrays_of_mem_arrange (hs : screen.Addressable)
    (hcourse : Course (r.withDetector d) 0 xs s s')
    (hframes : ∀ x ∈ xs, ∀ frame, x.frame? = some frame → frame.dimensions = screen)
    {y : Region} (hy : y ∈ Region.arrange (Region.firsts (xs.flatMap Round.found))) :
    y ∈ Region.firsts (xs.flatMap Round.found) ∧ y.category ≠ .small ∧ d.Portrays screen y.box y := by
  obtain ⟨hfirst, hsmall⟩ := Region.mem_arrange.1 hy
  exact ⟨hfirst, hsmall, portrays_of_mem_found hs hcourse hframes (Region.mem_of_mem_firsts hfirst)⟩

/-- A box is shown when it is reported in a frame with a category to be shown. -/
theorem mem_map_box_arrange_iff (hs : screen.Addressable)
    (hcourse : Course (r.withDetector d) 0 xs s s')
    (hframes : ∀ x ∈ xs, ∀ frame, x.frame? = some frame → frame.dimensions = screen) {b : PixelBox} :
    b ∈ (Region.arrange (Region.firsts (xs.flatMap Round.found))).map Region.box ↔
      ∃ x ∈ xs, ∃ frame category,
        x.frame? = some frame ∧ d.Reports frame b category ∧ category ≠ .small := by
  rw [List.mem_map]
  constructor
  · rintro ⟨y, hy, rfl⟩
    obtain ⟨hfirst, hsmall, -⟩ := portrays_of_mem_arrange hs hcourse hframes hy
    obtain ⟨⟨x, frame, hx, hframe, hreports⟩, -⟩ := first_round hs hcourse hframes hfirst
    exact ⟨x, List.mem_of_getElem? hx, frame, y.category, hframe, hreports, hsmall⟩
  · rintro ⟨x, hx, frame, category, hframe, hreports, hsmall⟩
    obtain ⟨y, hy, hbox, rfl⟩ := exists_first_of_reports hs hcourse hframes hx hframe hreports
    exact ⟨y, Region.mem_arrange.2 ⟨hy, hsmall⟩, hbox⟩

/-- The regions are those of the boxes that are reported in a frame of the rounds with a category to be shown,
one for each box. A region carries the number of the first round whose frame has its box. The regions stand in
the order of their areas, the largest first. -/
structure ShowsBoxes (d : Detector) (xs : List Round) (shown : List Region) : Prop where
  boxes : ∃ boxes : List PixelBox, boxes.Nodup ∧
    shown.map Region.bounds = boxes.map PixelBox.rect ∧
    ∀ b, b ∈ boxes ↔ ∃ x ∈ xs, ∃ frame category,
      x.frame? = some frame ∧ d.Reports frame b category ∧ category ≠ .small
  first : ∀ y ∈ shown, ∃ b, y.bounds = b.rect ∧
    (∃ x frame, xs[y.cycle]? = some x ∧ x.frame? = some frame ∧ d.Reports frame b y.category) ∧
    ∀ j x frame, j < y.cycle → xs[j]? = some x → x.frame? = some frame →
      ∀ category, ¬ d.Reports frame b category
  descending : shown.Pairwise fun a b => b.area ≤ a.area

/-- While the screen keeps its size, a run shows every box that is reported with a category to be shown, and
nothing else, the largest first. -/
theorem run_shows_every_box {settings : CyclingSettings} {start time : Nat} {shown : List Region}
    (h : run (r.withDetector d) settings start s = (.returned time (.ok shown), s')) :
    ∃ xs, xs.length = settings.maxAttempts ∧ Course (r.withDetector d) 0 xs s s' ∧
      ∀ screen : Dimensions, screen.Addressable →
        (∀ x ∈ xs, ∀ frame, x.frame? = some frame → frame.dimensions = screen) →
        ShowsBoxes d xs shown := by
  obtain ⟨xs, hlength, hcourse, rfl⟩ := course_of_run h
  refine ⟨xs, hlength, hcourse, fun screen hs hframes => ?_⟩
  have hportrays {y : Region} (hy : y ∈ Region.arrange (Region.firsts (xs.flatMap Round.found))) :=
    portrays_of_mem_arrange hs hcourse hframes hy
  refine ⟨⟨(Region.arrange (Region.firsts (xs.flatMap Round.found))).map Region.box, ?_, ?_,
    fun b => mem_map_box_arrange_iff hs hcourse hframes⟩, fun y hy => ?_, ?_⟩
  · refine List.pairwise_map.2 (List.Pairwise.imp_of_mem (fun {a b} ha hb hkey hbox => ?_)
      (Region.pairwise_arrange (Region.pairwise_firsts _)))
    have heq := (hportrays ha).2.2.key_eq
    rw [hbox, ← (hportrays hb).2.2.key_eq] at heq
    exact hkey heq
  · rw [List.map_map]
    exact List.map_congr_left fun y hy => (hportrays hy).2.2.bounds
  · obtain ⟨hfirst, -, hy⟩ := hportrays hy
    exact ⟨y.box, hy.bounds, first_round hs hcourse hframes hfirst⟩
  · exact List.Pairwise.imp_of_mem (fun {a b} ha hb hab =>
      (hportrays ha).2.2.area_le (hportrays hb).2.2 hs hab) (Region.arranged_arrange _).descending

/-! ### Three rounds over two frames -/

namespace Blinking

/-- The desktop is empty in every other frame. -/
def desktop : Screen := ⟨400, 300, .gray 16, []⟩

def frames : Array Frame := #[desktop.render .gray8, Detector.Drawn.screen.render .bgra8]

def settings : CyclingSettings := { maxAttempts := 3 }

/-- A recording of the frames, looked at by a detector. -/
def remote : Remote Recording := (Recording.remote fun _ _ => []).withDetector {}

theorem run_frames : ∃ shown d,
    run remote settings 0 { frames } = (.returned 5000 (.ok shown), d) :=
  run_returns (Recording.remote_prompt ({} : Detector).detect) settings 0 { frames } (by decide)

def round (cycle : Nat) : Round := Recording.round ({} : Detector).detect frames cycle

theorem course : Course remote 0 [round 0, round 1, round 2] { frames } { frames, advances := 2 } :=
  Recording.course_recording ({} : Detector).detect frames 3 0

theorem frame_of_round {cycle : Nat} {frame : Frame} (h : (round cycle).frame? = some frame) :
    frame.dimensions = ⟨400, 300⟩ := by
  rw [round, Recording.round] at h
  cases hfound : frames[cycle % frames.size]? with
  | none =>
    rw [hfound] at h
    cases h
  | some frame' =>
    rw [hfound] at h
    cases h
    have hmem : frame ∈ frames := Array.mem_of_getElem? hfound
    simp only [frames, List.mem_toArray, List.mem_cons, List.not_mem_nil, or_false] at hmem
    rcases hmem with rfl | rfl <;> rfl

theorem not_reports_desktop (b : PixelBox) (category : Category) :
    ¬ ({} : Detector).Reports (desktop.render .gray8) b category := by
  rintro ⟨-, r, hr, -⟩
  have hshows : desktop.Shows .gray8 := fun _ => ⟨by decide, nofun⟩
  obtain ⟨rs, hrs, hrecords⟩ := Detector.detect?_render (d := {}) (s := desktop) 0 (by decide)
    (by decide) ⟨by decide, by decide⟩ hshows (by decide) (by decide) ⟨nofun, .nil⟩ .nil .nil
  rw [Detector.detect, hrs, List.map_eq_nil_iff.1 hrecords] at hr
  cases hr

/-- The first of the windows is found in the second frame. -/
theorem reports_broad : ({} : Detector).Reports (Detector.Drawn.screen.render .bgra8)
    Detector.Drawn.broad.box .large := by
  have hlarge : ({} : Detector).classify
      (Detector.Drawn.broad.box.area / Detector.Drawn.screen.dimensions.area) = .large := by
    decide +kernel
  rw [← hlarge]
  refine Detector.reports_render (by decide) (by decide) ⟨by decide, by decide⟩ (fun h => by cases h)
    (by decide) (by decide) Detector.Drawn.separate ?_ (by decide +kernel)
  simp [Detector.Drawn.screen]

end Blinking

/-- A window that is on the screen in the second of three rounds only is shown, with the number of that
round. -/
theorem blinking_run_shows_boxes : ∃ shown d,
    run Blinking.remote Blinking.settings 0 { frames := Blinking.frames } =
      (.returned 5000 (.ok shown), d) ∧
    ShowsBoxes {} [Blinking.round 0, Blinking.round 1, Blinking.round 2] shown ∧
    ∃ y ∈ shown, y.bounds = (⟨50, 50, 151, 131⟩ : PixelBox).rect ∧ y.cycle = 1 := by
  obtain ⟨shown, d, hrun⟩ := Blinking.run_frames
  obtain ⟨xs, hlength, hcourse, hshown⟩ := run_shows_every_box hrun
  obtain ⟨rfl, -⟩ := hcourse.unique Blinking.course hlength
  have hframes : ∀ x ∈ [Blinking.round 0, Blinking.round 1, Blinking.round 2], ∀ frame,
      x.frame? = some frame → frame.dimensions = ⟨400, 300⟩ := by
    simp only [List.mem_cons, List.not_mem_nil, or_false]
    rintro x (rfl | rfl | rfl) frame hframe <;> exact Blinking.frame_of_round hframe
  have hboxes := hshown ⟨400, 300⟩ ⟨by decide, by decide⟩ hframes
  refine ⟨shown, d, hrun, hboxes, ?_⟩
  obtain ⟨boxes, -, hmap, hmem⟩ := hboxes.boxes
  have hbroad : Detector.Drawn.broad.box ∈ boxes :=
    (hmem _).2 ⟨Blinking.round 1, by simp, _, _, rfl, Blinking.reports_broad, by decide⟩
  have hbounds : (⟨50, 50, 151, 131⟩ : PixelBox).rect ∈ shown.map Region.bounds :=
    hmap ▸ List.mem_map_of_mem hbroad
  obtain ⟨y, hy, hbounds⟩ := List.mem_map.1 hbounds
  refine ⟨y, hy, hbounds, ?_⟩
  obtain ⟨b, -, ⟨x, frame, hx, hframe, hreports⟩, -⟩ := hboxes.first y hy
  have hlt : y.cycle < 3 := (List.getElem?_eq_some_iff.1 hx).1
  -- the other rounds see the empty desktop
  by_contra hne
  have hcycle : y.cycle = 0 ∨ y.cycle = 2 := by omega
  have hdesktop : x.frame? = some (Blinking.desktop.render .gray8) := by
    rcases hcycle with hcycle | hcycle <;> rw [hcycle] at hx <;> cases hx <;> rfl
  rw [Option.some.inj (hframe.symm.trans hdesktop)] at hreports
  exact Blinking.not_reports_desktop _ _ hreports

end Survey

end WindowSurvey
