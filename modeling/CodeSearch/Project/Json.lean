import CodeSearch.Project.Open
import CodeSearch.Syntax.Json

/-! # Projects as JSON

The files of a project are an object of paths and contents. A content is a source, or an array of
bytes for a file that may be no text.
-/

namespace CodeSearch

open Syntax (Source)
open Time (Instant)

namespace ProjectFile

/-- The content of a file, if it is a text. -/
def sourceOf (j : Json) : Option Source :=
  match j.member "bytes" with
  | .arr bytes =>
    let content := ByteArray.mk (bytes.map fun b => (b.nat?.getD 0).toUInt8).toArray
    (String.fromUTF8? content).map fun text => { Source.ofJson j with text }
  | _ => some (Source.ofJson j)

def ofMember (modifiedAt : Instant) (path : String) (content : Json) : ProjectFile :=
  { place := FilePath.components path, source := sourceOf content
    modifiedAt := (content.time? "modified_at").getD modifiedAt }

end ProjectFile

/-- The project of some files. Those without a time of their own were modified at the given one. -/
def Project.ofJson (root : String) (modifiedAt : Instant) (files : Json) : Project :=
  match files with
  | .obj members =>
    { root, files := members.map fun (path, content) => .ofMember modifiedAt path content }
  | _ => { root, files := [] }

def IndexSummary.toJson (s : IndexSummary) : Json :=
  .obj [("failed", .ofNat s.failed), ("files_found", .ofNat s.filesFound),
    ("indexed", .ofNat s.indexed), ("skipped", .ofNat s.skipped)]

end CodeSearch
