import Mathlib.Data.List.Induction
import Mathlib.Logic.Relation
import Workbench.Proofs.File.Answers
import Workbench.Proofs.Path.Ancestors
import Workbench.Proofs.Tabs.Fate
import Workbench.Proofs.Tree.Rename

/-! # The hierarchy of paths

A path that names its folders one by one, each after a slash, stands for a list of names,
and what is at or below a folder begins with the folder's names. The same paths are found by
going from parent to parent. So it makes no difference whether what a folder holds is told by
comparing spellings or by listing folders. -/

namespace Workbench

namespace Text

/-- Two texts without a separator are the same if whatever follows them, at their ends or from
a separator on, makes them so. -/
theorem append_inj_of_notMem {sep : Char} {first second rest rest' : List Char}
    (hfirst : sep ∉ first) (hsecond : sep ∉ second) (hrest : rest = [] ∨ rest.head? = some sep)
    (hrest' : rest' = [] ∨ rest'.head? = some sep) (h : first ++ rest = second ++ rest') :
    first = second ∧ rest = rest' := by
  have htake : ∀ {word tail : List Char}, sep ∉ word → (tail = [] ∨ tail.head? = some sep) →
      (word ++ tail).takeWhile (· != sep) = word := by
    intro word tail hword htail
    rw [List.takeWhile_append_of_pos (by simpa using fun c hc (heq : c = sep) => hword (heq ▸ hc))]
    rcases htail with rfl | hhead
    · simp
    · obtain ⟨more, rfl⟩ := List.head?_eq_some_iff.mp hhead
      simp
  have hsame : first = second := by rw [← htake hfirst hrest, h, htake hsecond hrest']
  subst hsame
  exact ⟨rfl, List.append_cancel_left h⟩

/-- The last separator is the one behind which there is none. -/
theorem cutAtLast_append {sep : Char} {before after : List Char} (h : sep ∉ after) :
    cutAtLast sep (before ++ sep :: after) = some (before, after) := by
  cases hcut : cutAtLast sep (before ++ sep :: after) with
  | none => exact absurd (by simp) (notMem_of_cutAtLast_eq_none hcut)
  | some cut =>
      obtain ⟨first, last⟩ := cut
      obtain ⟨hspell, hlast⟩ := append_of_cutAtLast hcut
      rcases append_sep_cases hspell with rfl | ⟨gap, -, hafter⟩ | ⟨gap, -, hlonger⟩
      · rw [(List.cons.inj (List.append_cancel_left hspell)).2]
      · exact absurd (by simp [hafter]) h
      · exact absurd (by simp [hlonger]) hlast

end Text

namespace Path

open Text

variable {path folder : String} {names inner : List String} {name : String}

/-- What can stand between two slashes. -/
structure IsName (name : String) : Prop where
  ne_empty : name ≠ ""
  noSlash : '/' ∉ name.toList

instance (name : String) : Decidable (IsName name) :=
  decidable_of_iff (name ≠ "" ∧ '/' ∉ name.toList)
    ⟨fun h => ⟨h.1, h.2⟩, fun h => ⟨h.ne_empty, h.noSlash⟩⟩

/-- The characters of some names, each after a slash. -/
def spell (names : List String) : List Char := names.flatMap fun name => '/' :: name.toList

/-- The path of some names, the outermost first. No names are the root. -/
def ofNames (names : List String) : String :=
  if names = [] then "/" else String.ofList (spell names)

/-- A path is the root, or names its folders and itself each after a slash. -/
def Canonical (path : String) : Prop :=
  ∃ names, (∀ name ∈ names, IsName name) ∧ path = ofNames names

@[simp] theorem spell_nil : spell [] = [] := rfl

@[simp] theorem spell_cons (name : String) (names : List String) :
    spell (name :: names) = '/' :: (name.toList ++ spell names) := by
  simp [spell]

@[simp] theorem spell_append (names inner : List String) :
    spell (names ++ inner) = spell names ++ spell inner := by
  simp [spell]

theorem spell_cases (names : List String) : spell names = [] ∨ (spell names).head? = some '/' := by
  cases names with
  | nil => exact .inl rfl
  | cons name rest => exact .inr (by simp)

@[simp] theorem ofNames_nil : ofNames [] = "/" := rfl

theorem toList_ofNames (h : names ≠ []) : (ofNames names).toList = spell names := by
  rw [ofNames, if_neg h, String.toList_ofList]

/-- No slash ends a path below the root. -/
theorem ofNames_unslashed (hnames : ∀ name ∈ names, IsName name) (h : names ≠ []) :
    (ofNames names).toList.getLast? ≠ some '/' := by
  obtain ⟨init, last, rfl⟩ := List.eq_nil_or_concat names |>.resolve_left h
  have hlast : IsName last := hnames last (by simp)
  have hne : last.toList ≠ [] := fun hnil => hlast.ne_empty (String.toList_injective hnil)
  rw [toList_ofNames h]
  simp only [List.concat_eq_append, spell_append, spell_cons, spell_nil, List.append_nil]
  rw [List.getLast?_append_of_ne_nil _ (by simp), List.getLast?_cons_of_ne_nil hne]
  intro hslash
  exact hlast.noSlash (List.mem_of_getLast? hslash)

/-- Every path is below the root. -/
theorem isUnder_root (names : List String) : isUnder (ofNames names) "/" = true := by
  cases names with
  | nil => exact isUnder_self "/"
  | cons name rest =>
      have hbelow : below? (ofNames (name :: rest)) "/" = some (spell (name :: rest)) := by
        rw [below?, toList_ofNames (List.cons_ne_nil name rest), spell_cons]
        rfl
      rw [isUnder, hbelow, Option.isSome_some, Bool.or_true]

/-- The spelling of a path goes on after that of a folder exactly if its names do. -/
theorem prefix_of_spell {rest : List Char} (hnames : ∀ name ∈ names, IsName name)
    (hinner : ∀ name ∈ inner, IsName name) (hrest : rest = [] ∨ rest.head? = some '/')
    (h : spell inner = spell names ++ rest) : names <+: inner := by
  induction names generalizing inner with
  | nil => exact List.nil_prefix
  | cons name names ih =>
      obtain ⟨hname, hnames⟩ := List.forall_mem_cons.mp hnames
      cases inner with
      | nil => simp at h
      | cons first inner =>
          obtain ⟨hfirst, hinner⟩ := List.forall_mem_cons.mp hinner
          rw [spell_cons, spell_cons, List.cons_append, List.append_assoc] at h
          have htail : spell names ++ rest = [] ∨ (spell names ++ rest).head? = some '/' := by
            rcases spell_cases names with hnil | hhead
            · rwa [hnil, List.nil_append]
            · obtain ⟨more, hmore⟩ := List.head?_eq_some_iff.mp hhead
              exact .inr (by rw [hmore]; rfl)
          obtain ⟨hsame, hafter⟩ := append_inj_of_notMem hfirst.noSlash hname.noSlash
            (spell_cases inner) htail (List.cons.inj h).2
          rw [String.toList_injective hsame, List.prefix_cons_inj]
          exact ih hnames hinner hafter

/-- A path is at or below a folder exactly if its names begin with the folder's. -/
theorem isUnder_ofNames_iff (hnames : ∀ name ∈ names, IsName name)
    (hinner : ∀ name ∈ inner, IsName name) :
    isUnder (ofNames inner) (ofNames names) = true ↔ names <+: inner := by
  by_cases hroot : names = []
  · rw [hroot]
    exact iff_of_true (isUnder_root inner) List.nil_prefix
  rw [isUnder_iff (ofNames_unslashed hnames hroot)]
  constructor
  · -- Behind the folder's spelling stands nothing or a slash.
    have hprefix : ∀ {rest}, (rest = [] ∨ rest.head? = some '/') →
        (ofNames inner).toList = (ofNames names).toList ++ rest → names <+: inner := by
      intro rest hrest h
      rw [toList_ofNames hroot] at h
      by_cases hempty : inner = []
      · obtain ⟨first, more, rfl⟩ := List.exists_cons_of_ne_nil hroot
        have hfirst : first.toList ≠ [] := fun hnil =>
          (hnames first (by simp)).ne_empty (String.toList_injective hnil)
        simp [hempty, hfirst] at h
      · rw [toList_ofNames hempty] at h
        exact prefix_of_spell hnames hinner hrest h
    rintro (heq | ⟨rest, hrest⟩)
    · exact hprefix (.inl rfl) (by rw [heq, List.append_nil])
    · exact hprefix (.inr rfl) hrest
  · rintro ⟨more, rfl⟩
    cases more with
    | nil => exact .inl (by rw [List.append_nil])
    | cons name more =>
        refine .inr ⟨name.toList ++ spell more, ?_⟩
        rw [toList_ofNames (by simp), toList_ofNames hroot, spell_append, spell_cons]

/-! ## From parent to parent -/

/-- Going from parent to parent, any number of times, leads from a path to a folder. -/
def Reaches (path folder : String) : Prop :=
  Relation.ReflTransGen (fun lower upper => parent? lower = some upper) path folder

theorem parent?_ofNames_concat (names : List String) (hname : IsName name) :
    parent? (ofNames (names ++ [name])) = some (ofNames names) := by
  have hcut : cutAtLast '/' (ofNames (names ++ [name])).toList =
      some (spell names, name.toList) := by
    rw [toList_ofNames (by simp), spell_append, spell_cons, spell_nil, List.append_nil]
    exact cutAtLast_append hname.noSlash
  have hne : name.toList ≠ [] := fun hnil => hname.ne_empty (String.toList_injective hnil)
  rw [parent?, hcut]
  cases names with
  | nil => simp [hne]
  | cons first rest => simp [ofNames]

theorem parent?_root : parent? "/" = none := by decide

/-- The parent of a path has all its names but the last. -/
theorem parent?_ofNames_iff (hinner : ∀ name ∈ inner, IsName name) {parent : String} :
    parent? (ofNames inner) = some parent ↔
      ∃ init last, inner = init ++ [last] ∧ parent = ofNames init := by
  rcases List.eq_nil_or_concat inner with rfl | ⟨init, last, rfl⟩
  · simp [parent?_root]
  · rw [List.concat_eq_append] at hinner ⊢
    rw [parent?_ofNames_concat init (hinner last (by simp)), Option.some.injEq]
    constructor
    · rintro rfl
      exact ⟨init, last, rfl, rfl⟩
    · rintro ⟨init', last', heq, rfl⟩
      rw [(List.append_inj' heq rfl).1]

theorem reaches_ofNames_append (names more : List String) (hmore : ∀ name ∈ more, IsName name) :
    Reaches (ofNames (names ++ more)) (ofNames names) := by
  induction more using List.reverseRecOn with
  | nil =>
      rw [List.append_nil]
      exact .refl
  | append_singleton more last ih =>
      obtain ⟨hinit, hlast⟩ := List.forall_mem_append.mp hmore
      rw [← List.append_assoc]
      exact .head (parent?_ofNames_concat _ (hlast last (by simp))) (ih hinit)

/-- Going from parent to parent leads to the folders whose names a path begins with. -/
theorem reaches_ofNames_iff (hnames : ∀ name ∈ names, IsName name)
    (hinner : ∀ name ∈ inner, IsName name) :
    Reaches (ofNames inner) (ofNames names) ↔ names <+: inner := by
  constructor
  · intro h
    -- Only the names of the lower end of the way are known, so it is shortened from there.
    generalize hlower : ofNames inner = lower at h
    induction h using Relation.ReflTransGen.head_induction_on generalizing inner with
    | refl =>
        rw [← isUnder_ofNames_iff hnames hinner, hlower]
        exact isUnder_self _
    | head hparent _ ih =>
        rw [← hlower, parent?_ofNames_iff hinner] at hparent
        obtain ⟨init, last, rfl, rfl⟩ := hparent
        exact (ih (List.forall_mem_append.mp hinner).1 rfl).trans (List.prefix_append init [last])
  · rintro ⟨more, rfl⟩
    exact reaches_ofNames_append names more (List.forall_mem_append.mp hinner).2

/-- The test on spellings finds what going from parent to parent finds. -/
theorem isUnder_iff_reaches (hpath : Canonical path) (hfolder : Canonical folder) :
    isUnder path folder = true ↔ Reaches path folder := by
  obtain ⟨inner, hinner, rfl⟩ := hpath
  obtain ⟨names, hnames, rfl⟩ := hfolder
  rw [isUnder_ofNames_iff hnames hinner, reaches_ofNames_iff hnames hinner]

theorem Canonical.parent {parent : String} (hpath : Canonical path)
    (h : parent? path = some parent) : Canonical parent := by
  obtain ⟨inner, hinner, rfl⟩ := hpath
  obtain ⟨init, last, rfl, rfl⟩ := (parent?_ofNames_iff hinner).mp h
  exact ⟨init, (List.forall_mem_append.mp hinner).1, rfl⟩

/-- At or below a folder are the folder itself and what is directly in a folder there. -/
theorem isUnder_iff_eq_or_parent (hpath : Canonical path) (hfolder : Canonical folder) :
    isUnder path folder = true ↔
      path = folder ∨ ∃ inner, isUnder inner folder = true ∧ parent? path = some inner := by
  rw [isUnder_iff_reaches hpath hfolder, Reaches, Relation.ReflTransGen.cases_head_iff]
  refine or_congr_right (exists_congr fun inner => ?_)
  rw [and_comm]
  refine and_congr_left fun hparent => ?_
  exact (isUnder_iff_reaches (hpath.parent hparent) hfolder).symm

end Path

open Workbench.Path

namespace MemoryFiles

/-- Listing a folder shows what is stored and has the folder for its parent. -/
theorem mem_list_iff (m : MemoryFiles) {path folder : String} :
    path ∈ (m.list folder).map (·.path) ↔ m.Stored path ∧ parent? path = some folder := by
  have hfile : m.files.contains path = true ↔ ∃ file, (path, file) ∈ m.files.entries := by
    simp only [m.files.contains_iff, Keyed.get?_eq_some_iff]
  have hfolder : m.folders.contains path = true ↔ path ∈ m.folders.keys :=
    m.folders.mem_keys_iff.symm
  rw [Stored, hfile, hfolder, list, or_and_right, List.map_append, List.mem_append, or_comm]
  simp

/-- A deleted folder goes with all that is stored at or below it, and nothing else does. -/
theorem stored_delete_iff {m : MemoryFiles} {path folder : String}
    (hfile : m.files.contains folder = false) (hfolder : m.folders.contains folder = true) :
    (m.delete folder).2.Stored path ↔ m.Stored path ∧ isUnder path folder = false := by
  have hdelete : (m.delete folder).2 =
      { m with
        files := m.files.filter fun key _ => !isUnder key folder
        folders := m.folders.filter fun key _ => !isUnder key folder } := by
    rw [delete, hfile, hfolder]
    rfl
  rw [hdelete, Stored, Stored, or_and_right]
  simp only [Keyed.contains_filter m.files fun key => !isUnder key folder,
    Keyed.contains_filter m.folders fun key => !isUnder key folder, Bool.not_eq_true']

end MemoryFiles

/-- What is selected with a folder by its spelling, and what is listed folder by folder, are the
same hierarchy. -/
structure SameHierarchy (folder : String) : Prop where
  under_iff : ∀ path, Canonical path → (isUnder path folder = true ↔ Reaches path folder)
  /-- In the tree, what is renamed or deleted with the folder. -/
  keysUnder_iff : ∀ (tree : FileTree) (key : String), Canonical key →
    (key ∈ FileTree.keysUnder tree.entries folder ↔
      tree.contains key = true ∧ Reaches key folder)
  /-- The folder and the children of all folders there. -/
  children_iff : ∀ (tree : FileTree) (entry : TreeEntry), entry ∈ tree.entries.values →
    Canonical entry.path →
      (isUnder entry.path folder = true ↔
        entry.path = folder ∨ ∃ inner, isUnder inner folder = true ∧ entry ∈ tree.children inner)
  /-- Of the tabs, those that are closed with the folder. -/
  closed_iff : ∀ bar : TabBar, bar.ids.Nodup → ∀ tab ∈ bar.tabs, Canonical tab.path →
    (tab ∉ (bar.closeByPath folder true).2.tabs ↔ Reaches tab.path folder)
  /-- And those that are moved with the folder. -/
  moved_iff : ∀ (bar : TabBar) (newFolder : String), bar.ids.Nodup → ∀ tab ∈ bar.tabs,
    Canonical tab.path →
      ((∃ target, (tab.id, target) ∈ bar.moves folder newFolder) ↔ Reaches tab.path folder)
  /-- Of the files and folders in memory, those that are deleted with the folder. -/
  deleted_iff : ∀ m : MemoryFiles, m.files.contains folder = false →
    m.folders.contains folder = true → ∀ path, m.Stored path → Canonical path →
      (¬ (m.delete folder).2.Stored path ↔ Reaches path folder)
  /-- The folder and what is listed in all folders there. -/
  listed_iff : ∀ (m : MemoryFiles) (path : String), m.Stored path → Canonical path →
    (isUnder path folder = true ↔
      path = folder ∨
        ∃ inner, isUnder inner folder = true ∧ path ∈ (m.list inner).map (·.path))

/-- Spellings and listings tell the same hierarchy, from the root on. -/
theorem sameHierarchy_of_canonical {folder : String} (hfolder : Canonical folder) :
    SameHierarchy folder := by
  constructor
  case under_iff => exact fun path hpath => isUnder_iff_reaches hpath hfolder
  case keysUnder_iff =>
    intro tree key hkey
    rw [FileTree.mem_keysUnder, isUnder_iff_reaches hkey hfolder]
    rfl
  case children_iff =>
    intro tree entry hentry hpath
    rw [isUnder_iff_eq_or_parent hpath hfolder]
    simp only [FileTree.children, List.mem_filter, hentry, true_and, beq_iff_eq]
  case closed_iff =>
    intro bar hids tab htab hpath
    rw [← isUnder_iff_reaches hpath hfolder, TabBar.tabs_closeByPath hids, List.mem_filter]
    simp [htab]
  case moved_iff =>
    intro bar newFolder hids tab htab hpath
    rw [← isUnder_iff_reaches hpath hfolder, ← isSome_rebase? tab.path folder newFolder,
      Option.isSome_iff_exists]
    refine exists_congr fun target => ?_
    rw [TabBar.mem_moves_iff]
    constructor
    · rintro ⟨other, hother, hid, hplace⟩
      rwa [TabBar.eq_of_id_eq hids hother htab hid] at hplace
    · exact fun hplace => ⟨tab, htab, rfl, hplace⟩
  case deleted_iff =>
    intro m hfile hmade path hstored hpath
    rw [MemoryFiles.stored_delete_iff hfile hmade, ← isUnder_iff_reaches hpath hfolder]
    simp [hstored]
  case listed_iff =>
    intro m path hstored hpath
    rw [isUnder_iff_eq_or_parent hpath hfolder]
    simp only [MemoryFiles.mem_list_iff, hstored, true_and]

/-- A folder and the root, with a path in the folder and one in a sibling whose name begins
like the folder's. -/
theorem sameHierarchy_sources :
    Canonical "/src" ∧ Canonical "/" ∧ SameHierarchy "/src" ∧ SameHierarchy "/" ∧
      Reaches "/src/lib/a" "/src" ∧ ¬ Reaches "/srcs/a" "/src" ∧ Reaches "/srcs/a" "/" := by
  have hsource : Canonical "/src" := ⟨["src"], by decide, by decide⟩
  have hroot : Canonical "/" := ⟨[], by decide, rfl⟩
  have hinside : Canonical "/src/lib/a" := ⟨["src", "lib", "a"], by decide, by decide⟩
  have hsibling : Canonical "/srcs/a" := ⟨["srcs", "a"], by decide, by decide⟩
  have hsame := sameHierarchy_of_canonical hsource
  have hall := sameHierarchy_of_canonical hroot
  refine ⟨hsource, hroot, hsame, hall, (hsame.under_iff _ hinside).mp (by decide), ?_,
    (hall.under_iff _ hsibling).mp (by decide)⟩
  rw [← hsame.under_iff _ hsibling]
  decide

end Workbench
