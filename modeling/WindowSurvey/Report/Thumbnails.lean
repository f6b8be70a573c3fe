import WindowSurvey.Files.Basic
import WindowSurvey.Report.Basic
/-!
# Thumbnails beside a report

The thumbnails of the detected regions are written into a folder, one file a region, and the report says
where each one is.

## Main definitions

* `Report.thumbnailName` — the name of a thumbnail's file
* `Report.writeThumbnails` — the files, and the report with their paths
-/

namespace WindowSurvey.Report

variable {m : Type → Type} [Monad m]

/-- The name of the file with the thumbnail of the region with an index, which has two digits or
more. -/
def thumbnailName (index : Nat) : String :=
  "region-" ++ (if index < 10 then "0" else "") ++ toString index ++ ".png"

/-- Write the thumbnail of a region. -/
def writeThumbnail (files : Files m) (folder : String) (entry : ReportedRegion) (region : Region) :
    ExceptT Failure m ReportedRegion := do
  let path := Files.within folder (thumbnailName entry.index)
  Files.orFail (files.write path ⟨region.thumbnail⟩)
  return { entry with thumbnailPath := some path }

/-- Write the thumbnails of the detected regions into a folder, which is made even for none. -/
def writeThumbnails (files : Files m) (folder : String) (regions : List Region) (report : Report) :
    ExceptT Failure m Report := do
  Files.orFail (files.makeFolder folder)
  let detected ← (report.detected.zip regions).mapM fun (entry, region) =>
    writeThumbnail files folder entry region
  return { report with detected }

end WindowSurvey.Report
