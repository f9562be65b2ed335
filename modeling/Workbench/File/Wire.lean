import Workbench.File.Basic
import Workbench.Json.Record

/-! # Files in JSON

The JSON form of everything a file service tells. All fields are written, in
the order of their declaration. When read, sizes default to zero, times and
extensions to none, flags to false, and the encoding to UTF-8. -/

namespace Workbench

open Json

namespace Encoding

def toJson (e : Encoding) : Json := .text e.name

def ofJson? : Json → Option Encoding := oneOf? named

end Encoding

namespace EntryKind

def toJson (k : EntryKind) : Json := .text k.name

def ofJson? : Json → Option EntryKind := oneOf? named

end EntryKind

namespace FileContent

def toJson (c : FileContent) : Json :=
  ofMembers
    [("path", .text c.path), ("content", .text c.content), ("encoding", c.encoding.toJson),
     ("etag", .text c.etag), ("size", .integer c.size), ("modified", ofInt? c.modified)]

def ofJson? (j : Json) : Option FileContent := do
  match ← fields? ["path", "content", "encoding", "etag", "size", "modified"] j with
  | [path, content, encoding, etag, size, modified] =>
      pure
        { path := ← required text? path
          content := ← required text? content
          encoding := ← defaulted .utf8 Encoding.ofJson? encoding
          etag := ← required text? etag
          size := ← defaulted 0 natural? size
          modified := ← defaulted none (nullable signed?) modified }
  | _ => none

end FileContent

namespace WriteResult

def toJson (w : WriteResult) : Json :=
  ofMembers
    [("path", .text w.path), ("size", .integer w.size), ("modified", ofInt? w.modified),
     ("etag", .text w.etag)]

def ofJson? (j : Json) : Option WriteResult := do
  match ← fields? ["path", "size", "modified", "etag"] j with
  | [path, size, modified, etag] =>
      pure
        { path := ← required text? path
          size := ← defaulted 0 natural? size
          modified := ← defaulted none (nullable signed?) modified
          etag := ← required text? etag }
  | _ => none

end WriteResult

namespace DirEntry

def toJson (e : DirEntry) : Json :=
  ofMembers
    [("path", .text e.path), ("kind", e.kind.toJson), ("size", .integer e.size),
     ("modified", ofInt? e.modified)]

def ofJson? (j : Json) : Option DirEntry := do
  match ← fields? ["path", "kind", "size", "modified"] j with
  | [path, kind, size, modified] =>
      pure
        { path := ← required text? path
          kind := ← required EntryKind.ofJson? kind
          size := ← defaulted 0 natural? size
          modified := ← defaulted none (nullable signed?) modified }
  | _ => none

end DirEntry

namespace FileInfo

def toJson (i : FileInfo) : Json :=
  ofMembers
    [("path", .text i.path), ("name", .text i.name), ("size", .integer i.size),
     ("extension", ofText? i.extension), ("modified", ofInt? i.modified),
     ("read_only", .bool i.readOnly)]

def ofJson? (j : Json) : Option FileInfo := do
  match ← fields? ["path", "name", "size", "extension", "modified", "read_only"] j with
  | [path, name, size, extension, modified, readOnly] =>
      pure
        { path := ← required text? path
          name := ← required text? name
          size := ← defaulted 0 natural? size
          extension := ← defaulted none (nullable text?) extension
          modified := ← defaulted none (nullable signed?) modified
          readOnly := ← defaulted false bool? readOnly }
  | _ => none

end FileInfo

end Workbench
