import Workbench.Proofs.File.Wire
import Workbench.Proofs.Session.Snapshot

/-! # Records in texts

What a file service tells and what is kept of a session is written as text, and read back from
it, whatever characters its paths and contents have. The text may come from another version of
the program, which leaves out fields that carry their defaults and adds others. -/

namespace Workbench

open Json

/-- A value is read from the text of some JSON, on one line or indented. -/
def ReadFrom {α : Type} (ofJson? : Json → Option α) (value : α) (j : Json) : Prop :=
  (parse j.render).bind ofJson? = some value ∧ (parse j.renderPretty).bind ofJson? = some value

/-- A value is read back from its text, also when fields that carry their defaults were left
out of it, or fields that are not declared were added. -/
structure ReadBack {α : Type} (toJson : α → Json) (ofJson? : Json → Option α)
    (defaults : List (String × Json)) (value : α) : Prop where
  written : ReadFrom ofJson? value (toJson value)
  loosened : ∀ j, Loosens defaults (toJson value) j → ReadFrom ofJson? value j

section

variable {α : Type} {toJson : α → Json} {ofJson? : Json → Option α}
  {defaults : List (String × Json)} {value : α}

theorem readFrom_of_plain {j : Json} (hplain : Plain j) (hread : ofJson? j = some value) :
    ReadFrom ofJson? value j := by
  constructor
  · rw [hplain.parse_render, Option.bind_some, hread]
  · rw [hplain.parse_renderPretty, Option.bind_some, hread]

theorem readBack_of_plain (hplain : Plain (toJson value))
    (hwritten : Loosens defaults (toJson value) (toJson value))
    (hread : ∀ {j}, Loosens defaults (toJson value) j → ofJson? j = some value) :
    ReadBack toJson ofJson? defaults value where
  written := readFrom_of_plain hplain (hread hwritten)
  loosened _ hloosens := readFrom_of_plain (hloosens.plain hplain) (hread hloosens)

end

/-- All records are read back, if the sizes and times of files fit into words. -/
theorem records_readBack :
    (∀ i : FileInfo, InWords i.size i.modified →
        ReadBack FileInfo.toJson FileInfo.ofJson? FileInfo.defaults i) ∧
      (∀ c : FileContent, InWords c.size c.modified →
        ReadBack FileContent.toJson FileContent.ofJson? FileContent.defaults c) ∧
      (∀ w : WriteResult, InWords w.size w.modified →
        ReadBack WriteResult.toJson WriteResult.ofJson? WriteResult.defaults w) ∧
      (∀ e : DirEntry, InWords e.size e.modified →
        ReadBack DirEntry.toJson DirEntry.ofJson? DirEntry.defaults e) ∧
      ∀ snapshot : Snapshot,
        ReadBack Snapshot.toJson Snapshot.ofJson? Snapshot.defaults snapshot := by
  refine ⟨fun i h => ?info, fun c h => ?content, fun w h => ?write, fun e h => ?entry,
    fun snapshot => ?snapshot⟩
  case info =>
    exact readBack_of_plain i.plain_toJson (.refl _) (FileInfo.ofJson?_of_loosens h)
  case content =>
    exact readBack_of_plain c.plain_toJson (.refl _) (FileContent.ofJson?_of_loosens h)
  case write =>
    exact readBack_of_plain w.plain_toJson (.refl _) (WriteResult.ofJson?_of_loosens h)
  case entry =>
    exact readBack_of_plain e.plain_toJson (.refl _) (DirEntry.ofJson?_of_loosens h)
  case snapshot =>
    exact readBack_of_plain snapshot.plain_toJson (.refl _) Snapshot.ofJson?_of_loosens

/-- A content whose path has characters that are escaped, and one beyond the basic plane. -/
def escapedContent : FileContent :=
  { path := "/\"a\"\\\n\x01𝄞"
    content := ""
    encoding := .utf8
    etag := ""
    size := 18446744073709551615
    modified := none }

/-- The record of that content without its encoding and its time, and with two members that
are not declared. -/
def escapedRecord : Json :=
  .ofMembers
    [("path", .text escapedContent.path), ("mode", .integer (-644)), ("content", .text ""),
     ("etag", .text ""), ("size", .integer 18446744073709551615), ("owner", .text "\t")]

theorem escapedRecord_readFrom :
    Loosens FileContent.defaults escapedContent.toJson escapedRecord ∧
      escapedRecord.render =
        "\x7b\"path\":\"/\\\"a\\\"\\\\\\n\\u0001𝄞\",\"mode\":-644,\"content\":\"\"," ++
          "\"etag\":\"\",\"size\":18446744073709551615,\"owner\":\"\\t\"\x7d" ∧
      ReadFrom FileContent.ofJson? escapedContent escapedRecord := by
  have hloosens : Loosens FileContent.defaults escapedContent.toJson escapedRecord :=
    .record <| .keep _ <| .add (by decide) (.integer _) <| .keep _ <| .leave rfl <| .keep _ <|
      .keep _ <| .leave rfl <| .add (by decide) (.text _) .nil
  have hwords : InWords escapedContent.size escapedContent.modified :=
    ⟨by decide +kernel, nofun⟩
  exact ⟨hloosens, by decide +kernel,
    (records_readBack.2.1 escapedContent hwords).loosened _ hloosens⟩

end Workbench
