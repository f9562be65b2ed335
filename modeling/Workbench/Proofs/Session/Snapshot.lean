import Workbench.Proofs.Disk
import Workbench.Proofs.Json.Loosened
import Workbench.Session.Shell

/-! # Snapshot files

A snapshot is read from the text it was written to, and so from the file in which it was
saved. -/

namespace Workbench.Snapshot

open Json

/-- The fields that may be left out, with what they stand for then. -/
def defaults : List (String × Json) := [("open_paths", .list []), ("active_path", .null)]

theorem ofJson?_of_loosens {snapshot : Snapshot} {j : Json}
    (hloosens : Loosens defaults snapshot.toJson j) : ofJson? j = some snapshot := by
  obtain ⟨field, hfields, hfound⟩ := hloosens.fields? (by simp)
  simp only [List.map_cons, List.map_nil, List.forall_mem_cons] at hfields hfound
  obtain ⟨hopen, hactive, -⟩ := hfound
  have hpaths : listOf? text? (.list (snapshot.openPaths.map .text)) = some snapshot.openPaths :=
    listOf?_map fun _ _ => rfl
  rw [ofJson?, hfields]
  simp only [Option.bind_eq_bind, Option.bind_some, Option.pure_def,
    hopen.defaulted [] (listOf? text?) hpaths rfl,
    hactive.defaulted none (nullable text?) (nullable_text?_ofText? snapshot.activePath) rfl]

theorem ofJson?_toJson (snapshot : Snapshot) : ofJson? snapshot.toJson = some snapshot :=
  ofJson?_of_loosens (.refl _)

theorem plain_toJson (snapshot : Snapshot) : Plain snapshot.toJson := by
  refine .record ?_
  simp only [List.forall_mem_cons]
  exact ⟨.list (List.forall_mem_map.mpr fun path _ => .text path), plain_ofText? _,
    List.forall_mem_nil _⟩

theorem parse_render (snapshot : Snapshot) : parse snapshot.render = some snapshot := by
  rw [parse, render, snapshot.plain_toJson.parse_renderPretty, Option.bind_some, ofJson?_toJson]

/-- What was saved is loaded. -/
theorem load_save {snapshot : Snapshot} {file : String} {disk after : Disk}
    (h : snapshot.save file disk = (.ok (), after)) : load after file = .ok (some snapshot) := by
  unfold save at h
  cases hreplaced : disk.replace file (Text.utf8Bytes snapshot.render) with
  | mk answer stored =>
      rw [hreplaced] at h
      cases answer with
      | error error => cases h
      | ok _ =>
          obtain rfl := (Prod.mk.inj h).2
          have hread := Disk.readText_replace (congrArg Prod.fst hreplaced)
          rw [hreplaced] at hread
          rw [load, hread]
          dsimp only
          rw [parse_render]

end Workbench.Snapshot
