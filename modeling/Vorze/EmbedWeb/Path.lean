import Vorze.Foundation.FileSystem
import Vorze.Text
import Mathlib.Data.List.Infix

/-! # Path strings

How `std::filesystem::path` takes a path string of Windows apart and puts one
together, and the string helpers of the embedded web server.
-/

namespace Vorze.EmbedWeb

open Files

/-- `find(needle) != npos`. -/
def contains (needle input : Bytes) : Bool := input.tails.any needle.isPrefixOf

theorem contains_of_prefix {needle input : Bytes} (h : needle <+: input) :
    contains needle input = true := by
  rw [contains, List.any_eq_true]
  exact ⟨input, (List.mem_tails input input).mpr List.suffix_rfl, List.isPrefixOf_iff_prefix.mpr h⟩

/-! ## Taking a path apart -/

def isSlash (b : UInt8) : Bool := b == ch '/' || b == ch '\\'

def isDriveLetter (b : UInt8) : Bool :=
  (ch 'a' ≤ b && b ≤ ch 'z') || (ch 'A' ≤ b && b ≤ ch 'Z')

/-- The length of the root name: a drive, a device prefix or a server. -/
def rootNameLength (path : Bytes) : Nat :=
  match path with
  | a :: b :: rest =>
      if isDriveLetter a && b == ch ':' then 2
      else
        match rest with
        | c :: d :: tail =>
            if isSlash a && isSlash d && !(tail.head?.any isSlash) &&
                (isSlash b && (c == ch '?' || c == ch '.') || b == ch '?' && c == ch '?') then 3
            else if isSlash a && isSlash b && !isSlash c then
              3 + ((d :: tail).takeWhile (!isSlash ·)).length
            else 0
        | [c] => if isSlash a && isSlash b && !isSlash c then 3 else 0
        | [] => 0
  | _ => 0

def toPart (name : Bytes) : PathPart Bytes :=
  if name = text "." then .self else if name = text ".." then .parent else .name name

/-- The root name, the root directory and the elements. -/
def parsePath (path : Bytes) : Path Bytes :=
  let length := rootNameLength path
  let rest := path.drop length
  { root := if length = 0 then none else some (path.take length)
    fromRoot := rest.head?.any isSlash
    parts := ((rest.splitOnP isSlash).filter (· ≠ [])).map toPart }

def partText : PathPart Bytes → Bytes
  | .self => text "."
  | .parent => text ".."
  | .name n => n

/-- `generic_string` of a relative path. -/
def genericString (parts : List (PathPart Bytes)) : Bytes :=
  [ch '/'].intercalate (parts.map partText)

/-- A relative path that goes up shows it in its text. -/
theorem contains_dots_of_head? {parts : List (PathPart Bytes)} (h : parts.head? = some .parent) :
    contains (text "..") (genericString parts) = true := by
  apply contains_of_prefix
  cases parts with
  | nil => cases h
  | cons part rest =>
      obtain rfl := Option.some.inj h
      cases rest with
      | nil => simp [genericString, partText]
      | cons next rest =>
          rw [genericString, List.map_cons, List.intercalate_cons_of_ne_nil (by simp)]
          rw [List.append_assoc]
          exact List.prefix_append _ _

/-- `extension` of a file name: from the last dot on, unless that is the first
character. -/
def extension (filename : Bytes) : Bytes :=
  let tail := (filename.reverse.takeWhile (· != ch '.')).reverse
  if filename.length ≤ tail.length + 1 ∨ filename = text ".." then []
  else ch '.' :: tail

/-! ## The server's paths -/

/-- `path_cat`. -/
def pathCat (base path : Bytes) : Bytes :=
  if base.isEmpty then path
  else
    let result := if base.getLast? = some (ch '\\') then base.dropLast else base
    (result ++ path).map fun c => if c = ch '/' then ch '\\' else c

def toLower (b : UInt8) : UInt8 := if ch 'A' ≤ b && b ≤ ch 'Z' then b + 32 else b

/-- `beast::iequals`. -/
def iequals (a b : Bytes) : Bool := a.map toLower == b.map toLower

/-- The table of `mime_type`, in its order. -/
def mimeTypes : List (String × String) :=
  [(".htm", "text/html"), (".html", "text/html"), (".php", "text/html"), (".css", "text/css"),
    (".txt", "text/plain"), (".js", "application/javascript"), (".json", "application/json"),
    (".xml", "application/xml"), (".swf", "application/x-shockwave-flash"),
    (".flv", "video/x-flv"), (".png", "image/png"), (".jpe", "image/jpeg"),
    (".jpeg", "image/jpeg"), (".jpg", "image/jpeg"), (".gif", "image/gif"), (".bmp", "image/bmp"),
    (".ico", "image/vnd.microsoft.icon"), (".tiff", "image/tiff"), (".tif", "image/tiff"),
    (".svg", "image/svg+xml"), (".svgz", "image/svg+xml")]

/-- The part of the path from its last dot on decides. -/
def mimeType (path : Bytes) : Bytes :=
  let ext :=
    if path.contains (ch '.') then ch '.' :: (path.reverse.takeWhile (· != ch '.')).reverse else []
  match mimeTypes.find? fun row => iequals ext (text row.1) with
  | some row => text row.2
  | none => text "application/text"

end Vorze.EmbedWeb
