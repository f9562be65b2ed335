import Mathlib.Data.List.Basic
import Mathlib.Data.List.Nodup
import Workbench.Json.Record

/-! # Fields of written records

A record in which no declared name occurs twice is read name by name. Numbers are read back if
they fit into words. -/

namespace Workbench.Json

theorem any_isNone_ofNamed (members : List (String × Json)) :
    (members.map fun (name, value) => (some name, value)).any (·.1.isNone) = false := by
  rw [List.any_map]
  exact List.any_eq_false.mpr fun _ _ => Bool.false_ne_true

theorem memberCount_ofNamed (name : String) (members : List (String × Json)) :
    memberCount name (members.map fun (name, value) => (some name, value)) =
      (members.map (·.1)).count name := by
  rw [memberCount, List.countP_map, List.count_eq_countP, List.countP_map]
  exact List.countP_congr fun member _ => by simp

theorem member?_ofNamed_eq_none {members : List (String × Json)} {name : String}
    (h : name ∉ members.map (·.1)) :
    member? name (members.map fun (name, value) => (some name, value)) = none := by
  rw [member?, Option.map_eq_none_iff, List.find?_eq_none, List.forall_mem_map]
  intro member hmember heq
  exact h (List.mem_map.mpr ⟨member, hmember, by simpa using heq⟩)

/-- A record in which no declared name occurs twice is read name by name. -/
theorem fields?_of_count_le {members : List (String × Json)} {names : List String}
    (honce : ∀ name ∈ names, (members.map (·.1)).count name ≤ 1) :
    fields? names (.ofMembers members) = some (names.map fun name =>
      member? name (members.map fun (name, value) => (some name, value))) := by
  have hrepeats : names.any (fun name =>
      memberCount name (members.map fun (name, value) => (some name, value)) > 1) = false := by
    refine List.any_eq_false.mpr fun name hname => ?_
    rw [memberCount_ofNamed]
    simpa using honce name hname
  rw [ofMembers, fields?, any_isNone_ofNamed, hrepeats, if_neg (by simp)]

theorem fields?_ofNamed {members : List (String × Json)} (hnodup : (members.map (·.1)).Nodup)
    (names : List String) :
    fields? names (.ofMembers members) = some (names.map fun name =>
      member? name (members.map fun (name, value) => (some name, value))) :=
  fields?_of_count_le fun name _ => List.nodup_iff_count_le_one.mp hnodup name

/-! ## Values of fields -/

theorem natural?_integer {n : Nat} (h : Word.fits n = true) : natural? (.integer n) = some n := by
  simp [natural?, h]

theorem nullable_signed?_ofInt? {time : Option Int} (h : ∀ t ∈ time, Word.fitsSigned t = true) :
    nullable signed? (ofInt? time) = some time := by
  cases time with
  | none => rfl
  | some t =>
      change (signed? (.integer t)).map some = _
      rw [signed?, if_pos (h t rfl), Option.map_some]

theorem nullable_text?_ofText? (text : Option String) :
    nullable text? (ofText? text) = some text := by
  cases text <;> rfl

theorem listOf?_map {α : Type} {read : Json → Option α} {write : α → Json} {items : List α}
    (h : ∀ item ∈ items, read (write item) = some item) :
    listOf? read (.list (items.map write)) = some items := by
  change (items.map write).mapM read = some items
  induction items with
  | nil => rfl
  | cons item rest ih =>
      obtain ⟨hitem, hrest⟩ := List.forall_mem_cons.mp h
      rw [List.map_cons, List.mapM_cons, hitem, ih hrest]
      rfl

end Workbench.Json
