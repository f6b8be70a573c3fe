import WindowSurvey.Report.Basic
/-!
# The schema of reports

A description of the JSON form of reports for programs that check it. The names of the fields, and which
of them must be there, are taken from the fields that the reader knows.

## Main definitions

* `Report.schema` — the description
-/

namespace WindowSurvey.Report

/-- The names of the fields that must be there. -/
def requiredNames (fields : List Json.Field) : List String :=
  (fields.filter fun f => !f.mayMiss).map (·.name)

/-- The description of an object: its fields and the types of their values. -/
def objectSchema (fields : List Json.Field) (types : List Json) : List (String × Json) :=
  [("type", .ofString "object"),
    ("properties", .ofMembers ((fields.map (·.name)).zip types)),
    ("required", .ofItems ((requiredNames fields).map Json.ofString))]

/-- A value of a basic type. -/
def basicType (name : String) : Json := .ofMembers [("type", .ofString name)]

/-- A value of a basic type, or nothing. -/
def nullableType (name : String) : Json :=
  .ofMembers [("type", .ofItems [.ofString name, .ofString "null"])]

/-- A count. -/
def countType (format : String) : Json :=
  .ofMembers [("type", .ofString "integer"), ("format", .ofString format), ("minimum", .ofNat 0)]

/-- A value described elsewhere. -/
def reference (name : String) : Json := .ofMembers [("$ref", .ofString ("#/$defs/" ++ name))]

/-- A list of values described elsewhere. -/
def listOf (name : String) : Json :=
  .ofMembers [("type", .ofString "array"), ("items", reference name)]

/-- The descriptions that others refer to. -/
def definitions : List (String × Json) :=
  [("Rect", .ofMembers (objectSchema Rect.fields (Rect.fields.map fun _ => basicType "number"))),
    ("RegionCategory", .ofMembers [("type", .ofString "string"),
      ("enum", .ofItems (Category.choices.map fun c => .ofString c.1))]),
    ("RegionReport", .ofMembers (objectSchema ReportedRegion.fields
      [countType "uint", reference "Rect", reference "RegionCategory", countType "uint32",
        countType "uint", nullableType "string"])),
    ("RunId", .ofMembers [("type", .ofString "string"), ("format", .ofString "uuid")])]

/-- The description of reports. -/
def schema : Json :=
  .ofMembers ([("title", .ofString "DetectionReport")]
    ++ objectSchema fields
      [reference "RunId", basicType "string", basicType "string", nullableType "string",
        listOf "RegionReport", listOf "RegionReport", nullableType "integer"]
    ++ [("$defs", .ofMembers definitions)])

end WindowSurvey.Report
