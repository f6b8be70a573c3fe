import WindowSurvey.Picture.Jpeg.Reader
import WindowSurvey.Picture.Png.Reader
/-!
# Kinds of picture files

The name of a file alone tells of what kind the picture in it is. Its content is then read as that kind,
whatever it looks like.

## Main definitions

* `PictureKind.ofFileName?` — the kind that a name tells
* `PictureKind.decode?` — the picture in a content
-/

namespace WindowSurvey

/-- The kinds of pictures that can be read. -/
inductive PictureKind where
  | png
  | jpeg
  deriving DecidableEq, Repr

namespace PictureKind

/-- The extension of a file name, which is what follows its last dot. A name that begins with its last
dot is a hidden file without an extension. -/
def extension? (name : String) : Option String :=
  let reversed := name.toList.reverse
  match reversed.dropWhile (· ≠ '.') with
  | [] => none
  | [_] => none
  | _ => some (String.ofList (reversed.takeWhile (· ≠ '.')).reverse)

/-- The kind of an extension in small letters. -/
def ofExtension? : String → Option PictureKind
  | "png" => some png
  | "jpg" => some jpeg
  | "jpeg" => some jpeg
  | _ => none

/-- The kind that a file name tells. Letters of either case will do. -/
def ofFileName? (name : String) : Option PictureKind :=
  (extension? name).bind fun e => ofExtension? e.toLower

/-- The name in messages. -/
def name : PictureKind → String
  | png => "PNG"
  | jpeg => "JPEG"

/-- The picture in a content. -/
def decode? : PictureKind → Array UInt8 → Option Rgba
  | png => Png.decode?
  | jpeg => Jpeg.decode?

end PictureKind

end WindowSurvey
