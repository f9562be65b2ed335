import Workbench.Proofs.Path

/-! # Folders above a path

The folders above a path are read off its spelling: they are its beginnings that a
slash follows, the root apart. So what lies above a folder lies above everything below
it, and where a path goes when a folder above it is renamed is told by the spelling of
the new folder. -/

namespace Workbench

namespace Text

theorem notMem_of_cutAtLast_eq_none {sep : Char} {cs : List Char} (h : cutAtLast sep cs = none) :
    sep ∉ cs := by
  induction cs with
  | nil => exact List.not_mem_nil
  | cons c rest ih =>
      rw [cutAtLast] at h
      split at h
      next => cases h
      next hrest =>
        split at h
        next => cases h
        next hne =>
          rw [List.mem_cons, not_or]
          exact ⟨Ne.symm hne, ih hrest⟩

/-- Of two places of a separator in a text, one is before the other unless they are the
same. -/
theorem append_sep_cases {sep : Char} {before rest before' rest' : List Char}
    (h : before ++ sep :: rest = before' ++ sep :: rest') :
    before' = before ∨ (∃ gap, before' = before ++ sep :: gap ∧ rest = gap ++ sep :: rest') ∨
      ∃ gap, before = before' ++ sep :: gap ∧ rest' = gap ++ sep :: rest := by
  rcases List.append_eq_append_iff.mp h with ⟨gap, hbefore, hrest⟩ | ⟨gap, hbefore, hrest⟩
  · cases gap with
    | nil => exact .inl (by rw [hbefore, List.append_nil])
    | cons c gap =>
        obtain ⟨rfl, hgap⟩ := List.cons.inj hrest
        exact .inr (.inl ⟨gap, hbefore, hgap⟩)
  · cases gap with
    | nil => exact .inl (by rw [hbefore, List.append_nil])
    | cons c gap =>
        obtain ⟨rfl, hgap⟩ := List.cons.inj hrest
        exact .inr (.inr ⟨gap, hbefore, hgap⟩)

end Text

namespace Path

open Text

variable {folder middle path parent target : String}

/-- A path is spelled as a folder with a slash and something after it. -/
def Above (folder path : String) : Prop := ∃ rest, path.toList = folder.toList ++ '/' :: rest

theorem Above.trans (h : Above folder middle) (h' : Above middle path) : Above folder path := by
  obtain ⟨rest, hrest⟩ := h
  obtain ⟨rest', hrest'⟩ := h'
  exact ⟨rest ++ '/' :: rest', by rw [hrest', hrest, List.append_assoc, List.cons_append]⟩

theorem Above.length_lt (h : Above folder path) : folder.length < path.length := by
  obtain ⟨rest, hrest⟩ := h
  have hlength := congrArg List.length hrest
  rw [List.length_append, List.length_cons, String.length_toList, String.length_toList] at hlength
  omega

theorem Above.ne (h : Above folder path) : folder ≠ path := by
  rintro rfl
  exact Nat.lt_irrefl _ h.length_lt

/-! ## The parent of a path -/

theorem ofList_ne_empty {cs : List Char} (h : cs ≠ []) : String.ofList cs ≠ "" := by
  intro heq
  apply h
  simpa using congrArg String.toList heq

/-- Below the root, the parent of a path is a folder above it. -/
theorem above_of_parent? (h : parent? path = some parent) (hroot : parent ≠ "/") :
    Above parent path ∧ parent ≠ "" := by
  unfold parent? at h
  split at h
  next before after hcut =>
    obtain ⟨hpath, -⟩ := append_of_cutAtLast hcut
    split at h
    next =>
      split at h
      next => cases h
      next => exact absurd (Option.some.inj h).symm hroot
    next hne =>
      obtain rfl := Option.some.inj h
      refine ⟨⟨after, by rw [hpath, String.toList_ofList]⟩, ofList_ne_empty ?_⟩
      simpa using hne
  next => cases h

/-- Of the folders above a path, the parent is the lowest. -/
theorem exists_parent?_of_above (h : Above folder path) (hempty : folder ≠ "")
    (hroot : folder ≠ "/") :
    ∃ parent, parent? path = some parent ∧ parent ≠ "/" ∧
      (folder = parent ∨ Above folder parent) := by
  obtain ⟨rest, hspell⟩ := h
  have hslash : '/' ∈ path.toList := by simp [hspell]
  have hfolder : folder.toList ≠ [] := fun hnil => hempty (String.toList_injective hnil)
  cases hcut : cutAtLast '/' path.toList with
  | none => exact absurd hslash (notMem_of_cutAtLast_eq_none hcut)
  | some cut =>
      obtain ⟨before, after⟩ := cut
      obtain ⟨hpath, hlast⟩ := append_of_cutAtLast hcut
      -- The folder ends no later than the last slash.
      have hwithin : before = folder.toList ∨ ∃ more, before = folder.toList ++ '/' :: more := by
        rcases append_sep_cases (hspell.symm.trans hpath) with
          hsame | ⟨gap, hlonger, -⟩ | ⟨gap, -, hafter⟩
        · exact .inl hsame
        · exact .inr ⟨gap, hlonger⟩
        · exact absurd (by simp [hafter]) hlast
      have hbefore : before ≠ [] := by
        rcases hwithin with hsame | ⟨more, hmore⟩
        · rw [hsame]
          exact hfolder
        · simp [hmore]
      refine ⟨String.ofList before, by simp [parent?, hcut, hbefore], ?_, ?_⟩
      · intro heq
        have hone : before = ['/'] := by simpa using congrArg String.toList heq
        rcases hwithin with hsame | ⟨more, hmore⟩
        · exact hroot (String.toList_injective (hsame.symm.trans hone))
        · rw [hone] at hmore
          cases htext : folder.toList with
          | nil => exact hfolder htext
          | cons c rest => simp [htext] at hmore
      · rcases hwithin with hsame | ⟨more, hmore⟩
        · left
          rw [hsame, String.ofList_toList]
        · exact .inr ⟨more, by rw [String.toList_ofList, hmore]⟩

/-! ## All folders above a path -/

theorem ancestorsUpTo_empty (limit : Nat) : ancestorsUpTo limit "" = [] := by
  cases limit <;> rfl

/-- A limit that is not below the length of the path cuts nothing off. -/
theorem ancestorsUpTo_congr {limit other : Nat} (hlimit : path.length ≤ limit)
    (hother : path.length ≤ other) : ancestorsUpTo limit path = ancestorsUpTo other path := by
  induction limit generalizing path other with
  | zero =>
      obtain rfl := String.length_eq_zero_iff.mp (Nat.le_zero.mp hlimit)
      rw [ancestorsUpTo_empty, ancestorsUpTo_empty]
  | succ limit ih =>
      cases other with
      | zero =>
          obtain rfl := String.length_eq_zero_iff.mp (Nat.le_zero.mp hother)
          rw [ancestorsUpTo_empty, ancestorsUpTo_empty]
      | succ other =>
          unfold ancestorsUpTo
          split
          next parent hparent =>
            split
            next => rfl
            next hroot =>
              have hshorter := (above_of_parent? hparent hroot).1.length_lt
              have hrest : ancestorsUpTo limit parent = ancestorsUpTo other parent :=
                ih (by omega) (by omega)
              rw [hrest]
          next => rfl

theorem ancestors_eq_cons (h : parent? path = some parent) (hroot : parent ≠ "/") :
    ancestors path = parent :: ancestors parent := by
  have hshorter := (above_of_parent? h hroot).1.length_lt
  obtain ⟨limit, hlimit⟩ := Nat.exists_eq_succ_of_ne_zero (Nat.ne_zero_of_lt hshorter)
  have hrest : ancestorsUpTo limit parent = ancestors parent :=
    ancestorsUpTo_congr (by omega) (Nat.le_refl _)
  rw [ancestors, hlimit, ancestorsUpTo, h]
  dsimp only
  rw [if_neg hroot, hrest]

theorem ancestors_eq_nil (h : ∀ parent, parent? path = some parent → parent = "/") :
    ancestors path = [] := by
  unfold ancestors
  cases path.length with
  | zero => rfl
  | succ limit =>
      unfold ancestorsUpTo
      split
      next parent hparent => rw [if_pos (h parent hparent)]
      next => rfl

/-- From each path to its parent, a path leads to the root. -/
theorem climb {motive : String → Prop}
    (top : ∀ path, (∀ parent, parent? path = some parent → parent = "/") → motive path)
    (below : ∀ path parent, parent? path = some parent → parent ≠ "/" → motive parent →
      motive path) (path : String) : motive path := by
  induction hlength : path.length using Nat.strongRecOn generalizing path with
  | ind length ih =>
      by_cases htop : ∀ parent, parent? path = some parent → parent = "/"
      · exact top path htop
      · push Not at htop
        obtain ⟨parent, hparent, hroot⟩ := htop
        have hshorter := (above_of_parent? hparent hroot).1.length_lt
        exact below path parent hparent hroot (ih parent.length (by omega) parent rfl)

/-- The folders above a path are exactly its beginnings that a slash follows. -/
theorem mem_ancestors_iff :
    folder ∈ ancestors path ↔ folder ≠ "" ∧ folder ≠ "/" ∧ Above folder path := by
  induction path using climb with
  | top path htop =>
      rw [ancestors_eq_nil htop]
      refine ⟨fun h => absurd h List.not_mem_nil, ?_⟩
      rintro ⟨hempty, hroot, habove⟩
      obtain ⟨parent, hparent, hne, -⟩ := exists_parent?_of_above habove hempty hroot
      exact absurd (htop parent hparent) hne
  | below path parent hparent hroot ih =>
      obtain ⟨hup, hparent_ne⟩ := above_of_parent? hparent hroot
      rw [ancestors_eq_cons hparent hroot, List.mem_cons]
      constructor
      · rintro (rfl | hmem)
        · exact ⟨hparent_ne, hroot, hup⟩
        · obtain ⟨hempty, hne, habove⟩ := ih.mp hmem
          exact ⟨hempty, hne, habove.trans hup⟩
      · rintro ⟨hempty, hne, habove⟩
        obtain ⟨lowest, hlowest, -, hwithin⟩ := exists_parent?_of_above habove hempty hne
        obtain rfl := Option.some.inj (hparent.symm.trans hlowest)
        exact hwithin.imp_right fun h => ih.mpr ⟨hempty, hne, h⟩

theorem mem_ancestors_trans (h : folder ∈ ancestors middle) (h' : middle ∈ ancestors path) :
    folder ∈ ancestors path := by
  rw [mem_ancestors_iff] at h h' ⊢
  exact ⟨h.1, h.2.1, h.2.2.trans h'.2.2⟩

/-- Each folder above a path has the later ones above itself. -/
theorem pairwise_ancestors (path : String) :
    (ancestors path).Pairwise fun lower upper => upper ∈ ancestors lower := by
  induction path using climb with
  | top path htop =>
      rw [ancestors_eq_nil htop]
      exact .nil
  | below path parent hparent hroot ih =>
      rw [ancestors_eq_cons hparent hroot]
      exact List.pairwise_cons.mpr ⟨fun _ h => h, ih⟩

/-! ## Renaming a folder -/

/-- A spelling that no slash ends. A folder is renamed from and to such ones. -/
structure Spelled (path : String) : Prop where
  ne_empty : path ≠ ""
  unslashed : path.toList.getLast? ≠ some '/'

theorem Spelled.ne_root (h : Spelled path) : path ≠ "/" := by
  rintro rfl
  exact h.unslashed rfl

theorem Spelled.mem_ancestors (h : Spelled folder) (habove : Above folder path) :
    folder ∈ ancestors path :=
  mem_ancestors_iff.mpr ⟨h.ne_empty, h.ne_root, habove⟩

theorem below?_eq_some_iff (h : folder.toList.getLast? ≠ some '/') {rest : List Char} :
    below? path folder = some rest ↔
      path.toList = folder.toList ++ rest ∧ rest.head? = some '/' := by
  constructor
  · intro hbelow
    have hspell := below?_eq_some hbelow
    rwa [dropEndWhile_of_unslashed h] at hspell
  · rintro ⟨hspell, hhead⟩
    have hprefix : folder.toList.isPrefixOf? path.toList = some rest := by
      rw [List.isPrefixOf?_eq_some_iff_append_eq]
      exact hspell.symm
    simp [below?, dropEndWhile_of_unslashed h, hprefix, hhead]

theorem isUnder_iff (h : folder.toList.getLast? ≠ some '/') :
    isUnder path folder = true ↔ path = folder ∨ Above folder path := by
  have hbelow : (below? path folder).isSome = true ↔ Above folder path := by
    rw [Option.isSome_iff_exists]
    constructor
    · rintro ⟨rest, hrest⟩
      obtain ⟨hspell, hhead⟩ := (below?_eq_some_iff h).mp hrest
      obtain ⟨more, rfl⟩ := List.head?_eq_some_iff.mp hhead
      exact ⟨more, hspell⟩
    · rintro ⟨rest, hrest⟩
      exact ⟨'/' :: rest, (below?_eq_some_iff h).mpr ⟨hrest, rfl⟩⟩
  rw [isUnder, Bool.or_eq_true, beq_iff_eq, hbelow]

/-- What lies below a path at or below a folder is below the folder. -/
theorem isUnder_of_above (h : isUnder middle folder = true) (habove : Above middle path) :
    isUnder path folder = true := by
  obtain ⟨rest, hrest⟩ := habove
  obtain ⟨tail, hfolder, htail⟩ := dropEndWhile_append (· == '/') folder.toList
  -- What follows the folder in the spelling of the path begins with a slash.
  have hbelow : ∃ more, path.toList = dropEndWhile (· == '/') folder.toList ++ more ∧
      more.head? = some '/' := by
    rw [isUnder, Bool.or_eq_true, beq_iff_eq] at h
    rcases h with rfl | h
    · refine ⟨tail ++ '/' :: rest, ?_, ?_⟩
      · rw [hrest, ← List.append_assoc, ← hfolder]
      · cases tail with
        | nil => rfl
        | cons c tail =>
            have hslash : c = '/' := by simpa using htail c List.mem_cons_self
            rw [hslash]
            rfl
    · obtain ⟨more, hmore⟩ := Option.isSome_iff_exists.mp h
      obtain ⟨hspell, hhead⟩ := below?_eq_some hmore
      obtain ⟨more', rfl⟩ := List.head?_eq_some_iff.mp hhead
      exact ⟨'/' :: (more' ++ '/' :: rest), by simp [hrest, hspell], rfl⟩
  obtain ⟨more, hspell, hhead⟩ := hbelow
  have hprefix : (dropEndWhile (· == '/') folder.toList).isPrefixOf? path.toList = some more := by
    rw [List.isPrefixOf?_eq_some_iff_append_eq]
    exact hspell.symm
  simp [isUnder, below?, hprefix, hhead]

/-- A path below a renamed folder keeps what follows the folder. -/
theorem rebase?_of_above {oldFolder newFolder : String} {rest : List Char}
    (hold : oldFolder.toList.getLast? ≠ some '/') (hnew : newFolder.toList.getLast? ≠ some '/')
    (h : path.toList = oldFolder.toList ++ '/' :: rest) :
    rebase? path oldFolder newFolder = some (String.ofList (newFolder.toList ++ '/' :: rest)) := by
  have hbelow : below? path oldFolder = some ('/' :: rest) :=
    (below?_eq_some_iff hold).mpr ⟨h, rfl⟩
  have hne : path ≠ oldFolder := (Above.ne ⟨rest, h⟩).symm
  simp [rebase?, hne, hbelow, dropEndWhile_of_unslashed hnew]

/-- In a renamed folder a path lies at the new folder or below it. -/
theorem eq_or_above_of_rebase? {oldFolder newFolder : String}
    (hnew : newFolder.toList.getLast? ≠ some '/')
    (h : rebase? path oldFolder newFolder = some target) :
    target = newFolder ∨ Above newFolder target := by
  rcases rebase?_eq_some hnew h with ⟨-, rfl⟩ | ⟨rest, -, htarget, hhead⟩
  · exact .inl rfl
  · obtain ⟨more, rfl⟩ := List.head?_eq_some_iff.mp hhead
    exact .inr ⟨more, htarget⟩

/-- Where a path goes when a folder is renamed: elsewhere than at or below the folder it
stays. -/
def placeIn (oldFolder newFolder path : String) : String :=
  (rebase? path oldFolder newFolder).getD path

theorem rebase?_eq_some_placeIn {oldFolder : String} (newFolder : String)
    (h : isUnder path oldFolder = true) :
    rebase? path oldFolder newFolder = some (placeIn oldFolder newFolder path) := by
  rw [← isSome_rebase? path oldFolder newFolder] at h
  obtain ⟨target, htarget⟩ := Option.isSome_iff_exists.mp h
  rw [placeIn, htarget, Option.getD_some]

theorem placeIn_of_not_isUnder {oldFolder newFolder : String} (h : ¬ isUnder path oldFolder = true) :
    placeIn oldFolder newFolder path = path := by
  rw [← isSome_rebase? path oldFolder newFolder, Option.not_isSome_iff_eq_none] at h
  rw [placeIn, h, Option.getD_none]

/-- The folders above the new place of a path are those above the new folder, the new
folder itself, and the new places of the folders above the path. -/
theorem mem_ancestors_placeIn {oldFolder newFolder : String} (hold : Spelled oldFolder)
    (hnew : Spelled newFolder) (hunder : isUnder path oldFolder = true)
    (h : folder ∈ ancestors (placeIn oldFolder newFolder path)) :
    folder ∈ ancestors newFolder ∨ folder = newFolder ∨
      ∃ former ∈ ancestors path, isUnder former oldFolder = true ∧
        folder = placeIn oldFolder newFolder former := by
  rcases (isUnder_iff hold.unslashed).mp hunder with rfl | ⟨rest, hrest⟩
  · rw [placeIn, rebase?_self, Option.getD_some] at h
    exact .inl h
  · rw [placeIn, rebase?_of_above hold.unslashed hnew.unslashed hrest, Option.getD_some] at h
    obtain ⟨hempty, hroot, more, hmore⟩ := mem_ancestors_iff.mp h
    rw [String.toList_ofList] at hmore
    -- The slash after the folder comes before, at or after the one below the new folder.
    rcases append_sep_cases hmore with hsame | ⟨gap, hfolder, hrest'⟩ | ⟨gap, hlonger, -⟩
    · exact .inr (.inl (String.toList_injective hsame))
    · let former := String.ofList (oldFolder.toList ++ '/' :: gap)
      have hformer : former.toList = oldFolder.toList ++ '/' :: gap := String.toList_ofList
      have hbelow : Above oldFolder former := ⟨gap, hformer⟩
      refine .inr (.inr ⟨former, mem_ancestors_iff.mpr ⟨?_, ?_, more, ?_⟩, ?_, ?_⟩)
      · exact ofList_ne_empty (by simp)
      · intro heq
        have hshort := hbelow.length_lt
        rw [heq] at hshort
        exact hold.ne_empty (String.length_eq_zero_iff.mp (Nat.lt_one_iff.mp hshort))
      · rw [hrest, hrest', hformer, List.append_assoc]
        rfl
      · exact (isUnder_iff hold.unslashed).mpr (.inr hbelow)
      · rw [placeIn, rebase?_of_above hold.unslashed hnew.unslashed hformer, Option.getD_some]
        exact String.toList_injective (by rw [hfolder, String.toList_ofList])
    · exact .inl (mem_ancestors_iff.mpr ⟨hempty, hroot, gap, hlonger⟩)

/-- The usual spelling of a path has no slash at its end, but for the root. -/
theorem spelled_normalize (hempty : normalize path ≠ "") (hroot : normalize path ≠ "/") :
    Spelled (normalize path) := by
  refine ⟨hempty, ?_⟩
  unfold normalize at hroot ⊢
  dsimp only at hroot ⊢
  split at hroot
  next => exact absurd rfl hroot
  next hstripped =>
    rw [if_neg hstripped, String.toList_ofList]
    intro hlast
    have hkept := getLast?_dropEndWhile hlast
    simp at hkept

end Path

end Workbench
