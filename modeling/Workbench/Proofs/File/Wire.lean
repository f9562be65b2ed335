import Workbench.File.Wire
import Workbench.Proofs.Json.Loosened

/-! # What a file service tells, read back from JSON

Contents, writes and listings are read back as they were written, if their sizes and times
fit into words. -/

namespace Workbench

open Json

theorem Encoding.ofJson?_toJson (encoding : Encoding) :
    Encoding.ofJson? encoding.toJson = some encoding :=
  Encoding.named_name encoding

theorem EntryKind.ofJson?_toJson (kind : EntryKind) : EntryKind.ofJson? kind.toJson = some kind :=
  EntryKind.named_name kind

/-- A size and a time that fit into words. -/
structure InWords (size : Nat) (modified : Option Int) : Prop where
  size : Word.fits size = true
  time : ∀ time ∈ modified, Word.fitsSigned time = true

namespace FileContent

/-- The fields that may be left out, with what they stand for then. -/
def defaults : List (String × Json) :=
  [("encoding", .text "utf-8"), ("size", .integer 0), ("modified", .null)]

theorem ofJson?_of_loosens {c : FileContent} (h : InWords c.size c.modified) {j : Json}
    (hloosens : Loosens defaults c.toJson j) : ofJson? j = some c := by
  obtain ⟨field, hfields, hfound⟩ := hloosens.fields? (by simp)
  simp only [List.map_cons, List.map_nil, List.forall_mem_cons] at hfields hfound
  obtain ⟨hpath, hcontent, hencoding, hetag, hsize, hmodified, -⟩ := hfound
  rw [ofJson?, hfields]
  simp only [Option.bind_eq_bind, Option.bind_some, Option.pure_def,
    hpath.required text? rfl rfl,
    hcontent.required text? rfl rfl,
    hencoding.defaulted .utf8 Encoding.ofJson? (Encoding.ofJson?_toJson c.encoding) rfl,
    hetag.required text? rfl rfl,
    hsize.defaulted 0 natural? (natural?_integer h.size) rfl,
    hmodified.defaulted none (nullable signed?) (nullable_signed?_ofInt? h.time) rfl]

theorem ofJson?_toJson {c : FileContent} (h : InWords c.size c.modified) :
    ofJson? c.toJson = some c :=
  ofJson?_of_loosens h (.refl _)

theorem plain_toJson (c : FileContent) : Plain c.toJson := by
  refine .record ?_
  simp only [List.forall_mem_cons]
  exact ⟨.text _, .text _, .text _, .text _, .integer _, plain_ofInt? _, List.forall_mem_nil _⟩

end FileContent

namespace WriteResult

/-- The fields that may be left out, with what they stand for then. -/
def defaults : List (String × Json) := [("size", .integer 0), ("modified", .null)]

theorem ofJson?_of_loosens {w : WriteResult} (h : InWords w.size w.modified) {j : Json}
    (hloosens : Loosens defaults w.toJson j) : ofJson? j = some w := by
  obtain ⟨field, hfields, hfound⟩ := hloosens.fields? (by simp)
  simp only [List.map_cons, List.map_nil, List.forall_mem_cons] at hfields hfound
  obtain ⟨hpath, hsize, hmodified, hetag, -⟩ := hfound
  rw [ofJson?, hfields]
  simp only [Option.bind_eq_bind, Option.bind_some, Option.pure_def,
    hpath.required text? rfl rfl,
    hsize.defaulted 0 natural? (natural?_integer h.size) rfl,
    hmodified.defaulted none (nullable signed?) (nullable_signed?_ofInt? h.time) rfl,
    hetag.required text? rfl rfl]

theorem ofJson?_toJson {w : WriteResult} (h : InWords w.size w.modified) :
    ofJson? w.toJson = some w :=
  ofJson?_of_loosens h (.refl _)

theorem plain_toJson (w : WriteResult) : Plain w.toJson := by
  refine .record ?_
  simp only [List.forall_mem_cons]
  exact ⟨.text _, .integer _, plain_ofInt? _, .text _, List.forall_mem_nil _⟩

end WriteResult

namespace DirEntry

/-- The fields that may be left out, with what they stand for then. -/
def defaults : List (String × Json) := [("size", .integer 0), ("modified", .null)]

theorem ofJson?_of_loosens {e : DirEntry} (h : InWords e.size e.modified) {j : Json}
    (hloosens : Loosens defaults e.toJson j) : ofJson? j = some e := by
  obtain ⟨field, hfields, hfound⟩ := hloosens.fields? (by simp)
  simp only [List.map_cons, List.map_nil, List.forall_mem_cons] at hfields hfound
  obtain ⟨hpath, hkind, hsize, hmodified, -⟩ := hfound
  rw [ofJson?, hfields]
  simp only [Option.bind_eq_bind, Option.bind_some, Option.pure_def,
    hpath.required text? rfl rfl,
    hkind.required EntryKind.ofJson? (EntryKind.ofJson?_toJson e.kind) rfl,
    hsize.defaulted 0 natural? (natural?_integer h.size) rfl,
    hmodified.defaulted none (nullable signed?) (nullable_signed?_ofInt? h.time) rfl]

theorem ofJson?_toJson {e : DirEntry} (h : InWords e.size e.modified) :
    ofJson? e.toJson = some e :=
  ofJson?_of_loosens h (.refl _)

theorem plain_toJson (e : DirEntry) : Plain e.toJson := by
  refine .record ?_
  simp only [List.forall_mem_cons]
  exact ⟨.text _, .text _, .integer _, plain_ofInt? _, List.forall_mem_nil _⟩

end DirEntry

namespace FileInfo

/-- The fields that may be left out, with what they stand for then. -/
def defaults : List (String × Json) :=
  [("size", .integer 0), ("extension", .null), ("modified", .null), ("read_only", .bool false)]

theorem ofJson?_of_loosens {i : FileInfo} (h : InWords i.size i.modified) {j : Json}
    (hloosens : Loosens defaults i.toJson j) : ofJson? j = some i := by
  obtain ⟨field, hfields, hfound⟩ := hloosens.fields? (by simp)
  simp only [List.map_cons, List.map_nil, List.forall_mem_cons] at hfields hfound
  obtain ⟨hpath, hname, hsize, hextension, hmodified, hreadOnly, -⟩ := hfound
  rw [ofJson?, hfields]
  simp only [Option.bind_eq_bind, Option.bind_some, Option.pure_def,
    hpath.required text? rfl rfl,
    hname.required text? rfl rfl,
    hsize.defaulted 0 natural? (natural?_integer h.size) rfl,
    hextension.defaulted none (nullable text?) (nullable_text?_ofText? i.extension) rfl,
    hmodified.defaulted none (nullable signed?) (nullable_signed?_ofInt? h.time) rfl,
    hreadOnly.defaulted false bool? rfl rfl]

theorem plain_toJson (i : FileInfo) : Plain i.toJson := by
  refine .record ?_
  simp only [List.forall_mem_cons]
  exact ⟨.text _, .text _, .integer _, plain_ofText? _, plain_ofInt? _, .bool _,
    List.forall_mem_nil _⟩

end FileInfo

end Workbench
