import WindowSurvey.Files.Disk
import WindowSurvey.Main
import WindowSurvey.Picture.Jpeg.Writer
import WindowSurvey.Proofs.Phase.Consistency
import WindowSurvey.Proofs.Phase.Front
import WindowSurvey.Proofs.Phase.Workers
import WindowSurvey.Remote.Rehearsal
import WindowSurvey.Screen
import WindowSurvey.Proofs.Region.Roster
import WindowSurvey.Proofs.Survey.Course
import WindowSurvey.Proofs.Detector.Regions
import WindowSurvey.Proofs.Survey.Saturation
import WindowSurvey.Proofs.Decimal.Magnitude
import WindowSurvey.Proofs.Decimal.Rounding
import WindowSurvey.Proofs.Detector.Frames
import WindowSurvey.Proofs.Survey.FixedScreen
import WindowSurvey.Proofs.Outline.Unions
import WindowSurvey.Proofs.Detector.Acceptance
import WindowSurvey.Proofs.Report.Walkthroughs
import WindowSurvey.Proofs.Survey.Deadline
import WindowSurvey.Proofs.Phase.Navigations
import WindowSurvey.Proofs.Phase.Overlooked
import WindowSurvey.Proofs.Picture.Formats
import WindowSurvey.Proofs.Detector.Likeness
import WindowSurvey.Proofs.Decimal.Root
import WindowSurvey.Proofs.Picture.Kernel
import WindowSurvey.Proofs.Phase.Observers
import WindowSurvey.Proofs.Region.Entries
import WindowSurvey.Proofs.Report.RoundTrip
import WindowSurvey.Proofs.Thumbnail.Render
import WindowSurvey.Proofs.Checked.Detection
