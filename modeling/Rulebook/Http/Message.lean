import Rulebook.Text.Utf8

/-!
# Requests and responses

A request has a method, a target and headers; a response has a status code, headers, a kind of
content and a body. The names of headers are compared without regard to the case of letters, and of
several headers of one name the first counts.
-/

namespace Rulebook.Http

/-- **The method of a request.** -/
inductive Method where
  /-- Asks for a representation. -/
  | get
  /-- Asks for what `get` would answer, without the body. -/
  | head
  /-- Sends data. -/
  | post
  /-- Replaces data. -/
  | put
  /-- Removes data. -/
  | delete
  /-- Asks what may be done. -/
  | options
  /-- Changes data. -/
  | patch
  /-- Asks for an echo. -/
  | trace
  /-- Asks for a tunnel. -/
  | connect
deriving DecidableEq, Repr, Inhabited

namespace Method

/-- The name of a method. -/
def name : Method → String
  | .get => "GET"
  | .head => "HEAD"
  | .post => "POST"
  | .put => "PUT"
  | .delete => "DELETE"
  | .options => "OPTIONS"
  | .patch => "PATCH"
  | .trace => "TRACE"
  | .connect => "CONNECT"

/-- All methods. -/
def all : List Method :=
  [.get, .head, .post, .put, .delete, .options, .patch, .trace, .connect]

/-- The method with a name. -/
def ofName? (name : String) : Option Method := all.find? (·.name == name)

end Method

/-- **A request.** -/
structure Request where
  /-- Its method. -/
  method : Method := .get
  /-- What it asks for, as it is written. -/
  target : String
  /-- Its headers in order. -/
  headers : List (String × String) := []
deriving DecidableEq, Repr, Inhabited

/-- Whether two names of headers are the same. -/
def sameHeader (a b : String) : Bool :=
  a.toList.map Char.toLower == b.toList.map Char.toLower

/-- **The first header with a name.** -/
def Request.header? (request : Request) (name : String) : Option String :=
  (request.headers.find? fun header => sameHeader header.1 name).map (·.2)

/-- **A response.** -/
structure Response where
  /-- The status code. -/
  code : Nat
  /-- The kind of its content, if it is known. -/
  mediaType : Option String
  /-- Further headers. -/
  headers : List (String × String) := []
  /-- The body. -/
  body : List UInt8
deriving DecidableEq, Repr, Inhabited

/-- The words for a status code. -/
def reason : Nat → String
  | 200 => "OK"
  | 204 => "No Content"
  | 400 => "Bad Request"
  | 401 => "Unauthorized"
  | 403 => "Forbidden"
  | 404 => "Not Found"
  | 500 => "Internal Server Error"
  | _ => "Unknown"

/-! ## Kinds of content -/

/-- JSON. -/
def jsonType : String := "application/json"

/-- Bytes without further meaning. -/
def binaryType : String := "application/octet-stream"

/-- Text. -/
def plainType : String := "text/plain; charset=utf-8"

/-- The kinds of content of files by their extensions. -/
def knownExtensions : List (String × String) :=
  [("txt", plainType), ("html", "text/html; charset=utf-8"), ("htm", "text/html; charset=utf-8"),
    ("xml", "text/xml; charset=utf-8"), ("opf", "application/oebps-package+xml"),
    ("xhtml", "application/xhtml+xml"), ("csv", "text/csv; charset=utf-8"),
    ("js", "text/javascript"), ("mjs", "text/javascript"), ("css", "text/css; charset=utf-8"),
    ("json", jsonType), ("png", "image/png"), ("gif", "image/gif"), ("bmp", "image/bmp"),
    ("jpeg", "image/jpeg"), ("jpg", "image/jpeg"), ("webp", "image/webp"), ("avif", "image/avif"),
    ("svg", "image/svg+xml"), ("ico", "image/x-icon"), ("flac", "audio/flac"),
    ("wav", "audio/wav"), ("webm", "video/webm"), ("weba", "audio/webm"), ("ogg", "video/ogg"),
    ("ogv", "video/ogg"), ("pdf", "application/pdf"), ("ttf", "application/font-sfnt"),
    ("otf", "application/font-sfnt"), ("woff", "application/font-woff"), ("woff2", "font/woff2"),
    ("mp3", "audio/mpeg"), ("mp4", "video/mp4"), ("mpeg4", "video/mp4"),
    ("wasm", "application/wasm"), ("aac", "audio/aac"), ("ics", "text/calendar"),
    ("bin", binaryType), ("iso", binaryType), ("dmg", binaryType), ("mpg", "video/mpeg"),
    ("mpeg", "video/mpeg"), ("tar", "application/x-tar"), ("gz", "application/gzip"),
    ("tif", "image/tiff"), ("tiff", "image/tiff"), ("mov", "video/quicktime"),
    ("cbz", "application/vnd.comicbook+zip"), ("cbr", "application/vnd.comicbook-rar"),
    ("rar", "application/vnd.rar"), ("epub", "application/epub+zip"),
    ("md", "text/markdown; charset=utf-8"), ("markdown", "text/markdown; charset=utf-8")]

/-- **The kind of content of a file** with an extension in letters of either case. -/
def typeOfExtension? (extension : String) : Option String :=
  (knownExtensions.find? fun known => sameHeader known.1 extension).map (·.2)

end Rulebook.Http
