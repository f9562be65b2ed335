import Workbench.Proofs.Json.Fields
import Workbench.Proofs.Json.RoundTrip

/-! # Records with members left out or added

A record may be written without some of the members that carry their defaults, and with
members of which its reader knows nothing. Every declared name still occurs at most once, and
where one is absent, its default is the value that was to be written. So the record is read
like the one it stands for. -/

namespace Workbench.Json

/-- The values of members that a reader does not know. -/
inductive Unknown : Json → Prop
  | text (s : String) : Unknown (.text s)
  | integer (n : Int) : Unknown (.integer n)

theorem Unknown.plain {value : Json} (h : Unknown value) : Plain value := by
  cases h with
  | text s => exact .text s
  | integer n => exact .integer n

/-- Members are written again: some of those that carry their defaults are left out, and
others, whose names are not declared, are added. -/
inductive LoosensMembers (names : List String) (defaults : List (String × Json)) :
    List (String × Json) → List (String × Json) → Prop
  | nil : LoosensMembers names defaults [] []
  | keep (member : String × Json) {written loosened : List (String × Json)}
      (rest : LoosensMembers names defaults written loosened) :
      LoosensMembers names defaults (member :: written) (member :: loosened)
  | leave {name : String} {value : Json} (hdefault : defaults.lookup name = some value)
      {written loosened : List (String × Json)}
      (rest : LoosensMembers names defaults written loosened) :
      LoosensMembers names defaults ((name, value) :: written) loosened
  | add {name : String} (hname : name ∉ names) {value : Json} (hvalue : Unknown value)
      {written loosened : List (String × Json)}
      (rest : LoosensMembers names defaults written loosened) :
      LoosensMembers names defaults written ((name, value) :: loosened)

/-- A record is written again. Its names are the declared ones. -/
inductive Loosens (defaults : List (String × Json)) : Json → Json → Prop
  | record {written loosened : List (String × Json)}
      (h : LoosensMembers (written.map (·.1)) defaults written loosened) :
      Loosens defaults (.ofMembers written) (.ofMembers loosened)

/-- What is found of a written member: its value, or nothing if that is the default. -/
def Found (defaults : List (String × Json)) (member : String × Json) (field : Option Json) :
    Prop :=
  field = some member.2 ∨ field = none ∧ defaults.lookup member.1 = some member.2

variable {names : List String} {defaults written loosened : List (String × Json)}

theorem ofMembers_injective : Function.Injective ofMembers := by
  intro first second h
  refine List.map_injective_iff.2 ?_ (Json.record.inj h)
  rintro ⟨name, value⟩ ⟨name', value'⟩ heq
  simpa using heq

namespace LoosensMembers

theorem refl (members : List (String × Json)) : LoosensMembers names defaults members members := by
  induction members with
  | nil => exact .nil
  | cons member rest ih => exact .keep member ih

theorem plain (h : LoosensMembers names defaults written loosened)
    (hplain : ∀ member ∈ written, Plain member.2) : ∀ member ∈ loosened, Plain member.2 := by
  induction h with
  | nil => exact hplain
  | keep member _ ih =>
      obtain ⟨hmember, hwritten⟩ := List.forall_mem_cons.mp hplain
      exact List.forall_mem_cons.mpr ⟨hmember, ih hwritten⟩
  | leave _ _ ih => exact ih (List.forall_mem_cons.mp hplain).2
  | add _ hvalue _ ih => exact List.forall_mem_cons.mpr ⟨hvalue.plain, ih hplain⟩

/-- No declared name occurs more often than before. -/
theorem count_le (h : LoosensMembers names defaults written loosened) {name : String}
    (hname : name ∈ names) : (loosened.map (·.1)).count name ≤ (written.map (·.1)).count name := by
  induction h with
  | nil => exact Nat.le_refl _
  | keep member _ ih =>
      rw [List.map_cons, List.map_cons, List.count_cons, List.count_cons]
      exact Nat.add_le_add_right ih _
  | leave _ _ ih =>
      rw [List.map_cons, List.count_cons]
      exact Nat.le_trans ih (Nat.le_add_right _ _)
  | @add other hother value _ _ _ _ ih =>
      have hne : other ≠ name := fun heq => hother (heq ▸ hname)
      rw [List.map_cons, List.count_cons_of_ne hne]
      exact ih

/-- A declared member has its value, or it was left out. -/
theorem found (h : LoosensMembers names defaults written loosened)
    (hnodup : (written.map (·.1)).Nodup) (hdeclared : ∀ member ∈ written, member.1 ∈ names)
    {member : String × Json} (hmember : member ∈ written) :
    Found defaults member
      (member? member.1 (loosened.map fun (name, value) => (some name, value))) := by
  induction h with
  | nil => cases hmember
  | keep first _ ih =>
      obtain ⟨hfirst, hrest⟩ := List.nodup_cons.mp hnodup
      rcases List.mem_cons.mp hmember with rfl | hmem
      · exact .inl (by simp [member?])
      · have hne : first.1 ≠ member.1 := fun heq =>
          hfirst (List.mem_map.mpr ⟨member, hmem, heq.symm⟩)
        simpa [member?, hne] using ih hrest (List.forall_mem_cons.mp hdeclared).2 hmem
  | @leave name value hdefault written loosened rest ih =>
      obtain ⟨hfirst, hrest⟩ := List.nodup_cons.mp hnodup
      obtain ⟨hname, hnames⟩ := List.forall_mem_cons.mp hdeclared
      rcases List.mem_cons.mp hmember with rfl | hmem
      · have hcount := rest.count_le hname
        rw [List.count_eq_zero_of_not_mem hfirst, Nat.le_zero, List.count_eq_zero] at hcount
        exact .inr ⟨member?_ofNamed_eq_none hcount, hdefault⟩
      · exact ih hrest hnames hmem
  | @add other hother value _ _ _ _ ih =>
      have hne : other ≠ member.1 := fun heq => hother (heq ▸ hdeclared member hmember)
      simpa [member?, hne] using ih hnodup hdeclared hmember

end LoosensMembers

/-! ## Loosened records -/

theorem Loosens.refl (members : List (String × Json)) :
    Loosens defaults (.ofMembers members) (.ofMembers members) :=
  .record (.refl members)

theorem Loosens.plain {j j' : Json} (h : Loosens defaults j j') (hplain : Plain j) : Plain j' := by
  cases h with
  | @record written loosened h =>
    generalize hj : ofMembers written = j at hplain
    cases hplain with
    | record hmembers =>
        obtain rfl := ofMembers_injective hj
        exact .record (h.plain hmembers)
    | _ => cases hj

/-- The declared fields of a loosened record are all found. -/
theorem Loosens.fields? {j : Json} (h : Loosens defaults (.ofMembers written) j)
    (hnodup : (written.map (·.1)).Nodup) :
    ∃ field : String → Option Json,
      Json.fields? (written.map (·.1)) j = some (written.map fun member => field member.1) ∧
        ∀ member ∈ written, Found defaults member (field member.1) := by
  generalize hj : ofMembers written = whole at h
  cases h with
  | @record written' loosened h =>
    obtain rfl := ofMembers_injective hj
    have honce (name : String) (hname : name ∈ written.map (·.1)) :
        (loosened.map (·.1)).count name ≤ 1 :=
      Nat.le_trans (h.count_le hname) (List.nodup_iff_count_le_one.mp hnodup name)
    refine ⟨fun name => member? name (loosened.map fun (name, value) => (some name, value)), ?_,
      fun member => h.found hnodup fun _ => List.mem_map_of_mem⟩
    rw [fields?_of_count_le honce, List.map_map]
    rfl

namespace Found

variable {α : Type} {name : String} {value : Json} {result : α} {field : Option Json}

/-- A field without a default is there, and so it is read. -/
theorem required (h : Found defaults (name, value) field) (read : Json → Option α)
    (hread : read value = some result) (hdefault : defaults.lookup name = none) :
    required read field = some result := by
  obtain rfl | ⟨-, hvalue⟩ := h
  · exact hread
  · rw [hdefault] at hvalue
    cases hvalue

/-- A field with a default is read, or it has the default. -/
theorem defaulted (h : Found defaults (name, value) field) (standard : α) (read : Json → Option α)
    (hread : read value = some result)
    (hdefault : (defaults.lookup name).bind read = some standard) :
    defaulted standard read field = some result := by
  obtain rfl | ⟨rfl, hvalue⟩ := h
  · exact hread
  · rw [hvalue, Option.bind_some, hread] at hdefault
    exact hdefault.symm

end Found

end Workbench.Json
