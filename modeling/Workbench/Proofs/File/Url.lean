import Mathlib.Data.List.TakeWhile
import Workbench.File.Url
import Workbench.Proofs.Path
import Workbench.Proofs.Text.Percent

/-! # Addresses below an address

A peer is reached at an address that ends with a slash. Steps and a query put behind it
are found unchanged behind the target of that address, so that the peer can tell them
apart from where it is itself. -/

namespace Workbench.Url

open Text

/-! ## Characters that stand for themselves -/

theorem encodeWhere_self {test : Char → Bool} {cs : List Char} (h : ∀ c ∈ cs, test c = false) :
    encodeWhere test cs = cs := by
  unfold encodeWhere
  induction cs with
  | nil => rfl
  | cons c rest ih =>
      obtain ⟨hc, hrest⟩ := List.forall_mem_cons.mp h
      rw [List.flatMap_cons, ih hrest, if_neg (by simp [hc])]
      rfl

theorem ascii_stands : ∀ n < 0x7f, standsInAddress (Char.ofNat n) = true →
    isControlOrSpace (Char.ofNat n) = false ∧ isEncodedInPath (Char.ofNat n) = false ∧
      isEncodedInQuery (Char.ofNat n) = false := by
  decide +kernel

/-- Such a character is neither dropped nor encoded. -/
theorem kept_of_stands {c : Char} (h : standsInAddress c = true) :
    isControlOrSpace c = false ∧ isEncodedInPath c = false ∧ isEncodedInQuery c = false := by
  have hsmall : c.toNat < 0x7f := by
    simp only [standsInAddress, Bool.and_eq_true, decide_eq_true_eq] at h
    exact h.1.2
  have hkept := ascii_stands c.toNat hsmall
  rw [Char.ofNat_toNat] at hkept
  exact hkept h

theorem ne_of_stands {c d : Char} (h : standsInAddress c = true)
    (hd : standsInAddress d = false) : c ≠ d := by
  rintro rfl
  exact Bool.false_ne_true (hd.symm.trans h)

/-! ## Steps -/

/-- A step of a path that is neither changed nor taken back. -/
def PlainStep (step : String) : Prop :=
  (∀ c ∈ step.toList, standsInAddress c = true) ∧ isDot step = false ∧ isDoubleDot step = false

instance (step : String) : Decidable (PlainStep step) :=
  decidable_of_iff
    (step.toList.all standsInAddress = true ∧ isDot step = false ∧ isDoubleDot step = false)
    (and_congr_left' List.all_eq_true)

theorem takeSteps_plain (taken : List String) {steps : List String}
    (h : ∀ step ∈ steps, PlainStep step) : takeSteps taken steps = taken ++ steps := by
  induction steps generalizing taken with
  | nil => exact (List.append_nil taken).symm
  | cons step rest ih =>
      obtain ⟨⟨-, hdot, hdouble⟩, hrest⟩ := List.forall_mem_cons.mp h
      rw [takeSteps, hdot, hdouble]
      simp [ih _ hrest]

/-- What is taken before plain steps does not depend on them. -/
theorem exists_takeSteps (taken before : List String) : ∃ left, ∀ steps : List String,
    steps ≠ [] → (∀ step ∈ steps, PlainStep step) →
      takeSteps taken (before ++ steps) = left ++ steps := by
  induction before generalizing taken with
  | nil => exact ⟨taken, fun steps _ h => takeSteps_plain taken h⟩
  | cons first rest ih =>
      obtain ⟨left, hleft⟩ := ih (if isDot first || isDoubleDot first then
        (if isDoubleDot first then taken.dropLast else taken) else taken ++ [first])
      refine ⟨left, fun steps hne h => ?_⟩
      have hmore : (rest ++ steps).isEmpty = false := by simp [hne]
      rw [← hleft steps hne h, List.cons_append, takeSteps, hmore]
      cases hdot : isDot first <;> cases hdouble : isDoubleDot first <;> simp

/-- The steps before a slash do not depend on what follows it. -/
theorem exists_segments (path : List Char) : ∃ before, ∀ rest : List Char, '\\' ∉ rest →
    segments (path ++ '/' :: rest) = before ++ rest.splitOnP (· == '/') := by
  have hmap : ∀ rest : List Char, '\\' ∉ rest →
      (path ++ '/' :: rest).map (fun c => if c = '\\' then '/' else c) =
        path.map (fun c => if c = '\\' then '/' else c) ++ '/' :: rest := by
    intro rest hrest
    have hself : rest.map (fun c => if c = '\\' then '/' else c) = rest := by
      refine (List.map_congr_left fun c hc => ?_).trans (List.map_id rest)
      rw [if_neg fun heq : c = '\\' => hrest (heq ▸ hc)]
      rfl
    rw [List.map_append, List.map_cons, hself]
    rfl
  cases hpath : path.map fun c => if c = '\\' then '/' else c with
  | nil =>
      refine ⟨[], fun rest hrest => ?_⟩
      rw [segments, hmap rest hrest, hpath]
      rfl
  | cons c cs =>
      by_cases hslash : c = '/'
      · refine ⟨cs.splitOnP (· == '/'), fun rest hrest => ?_⟩
        rw [segments, hmap rest hrest, hpath, hslash]
        exact List.splitOnP_append_cons cs rest rfl
      · refine ⟨(c :: cs).splitOnP (· == '/'), fun rest hrest => ?_⟩
        rw [segments, hmap rest hrest, hpath]
        split
        next heq => exact absurd (List.cons.inj heq).1 hslash
        next => exact List.splitOnP_append_cons (c :: cs) rest rfl

theorem splitOnP_intercalate {steps : List String} (hne : steps ≠ [])
    (h : ∀ step ∈ steps, PlainStep step) :
    ("/".intercalate steps).toList.splitOnP (· == '/') = steps.map String.toList := by
  rw [String.toList_intercalate, show "/".toList = ['/'] from rfl, ← List.splitOn_eq_splitOnP]
  refine List.splitOn_intercalate '/' ?_ (by simpa using hne)
  intro cs hcs hslash
  obtain ⟨step, hstep, rfl⟩ := List.mem_map.mp hcs
  exact ne_of_stands ((h step hstep).1 _ hslash) (by decide) rfl

theorem stands_or_slash {steps : List String} (h : ∀ step ∈ steps, PlainStep step) :
    ∀ c ∈ ("/".intercalate steps).toList, standsInAddress c = true ∨ c = '/' := by
  induction steps with
  | nil => nofun
  | cons first rest ih =>
      obtain ⟨hfirst, hrest⟩ := List.forall_mem_cons.mp h
      intro c hc
      cases rest with
      | nil =>
          rw [String.intercalate_singleton] at hc
          exact .inl (hfirst.1 c hc)
      | cons second others =>
          rw [String.intercalate_cons_cons, String.toList_append, String.toList_append] at hc
          rcases List.mem_append.mp hc with hbefore | hafter
          · rcases List.mem_append.mp hbefore with hstep | hslash
            · exact .inl (hfirst.1 c hstep)
            · exact .inr (List.mem_singleton.mp hslash)
          · exact ih hrest c hafter

theorem not_mem_intercalate {steps : List String} (h : ∀ step ∈ steps, PlainStep step) {d : Char}
    (hd : standsInAddress d = false) (hslash : d ≠ '/') : d ∉ ("/".intercalate steps).toList := by
  intro hmem
  rcases stands_or_slash h d hmem with hstands | heq
  · exact ne_of_stands hstands hd rfl
  · exact hslash heq

theorem normalizePath_append (path : List Char) {steps : List String} (hne : steps ≠ [])
    (h : ∀ step ∈ steps, PlainStep step) :
    normalizePath (path ++ '/' :: ("/".intercalate steps).toList) =
      normalizePath (path ++ ['/']) ++ "/".intercalate steps := by
  obtain ⟨before, hbefore⟩ := exists_segments path
  obtain ⟨left, hleft⟩ := exists_takeSteps []
    (before.map fun s => String.ofList (encodeWhere isEncodedInPath s))
  have hself : (steps.map String.toList).map
      (fun s => String.ofList (encodeWhere isEncodedInPath s)) = steps := by
    rw [List.map_map]
    refine (List.map_congr_left fun step hstep => ?_).trans (List.map_id steps)
    have hkept := fun c hc => (kept_of_stands ((h step hstep).1 c hc)).2.1
    rw [Function.comp_apply, encodeWhere_self hkept, String.ofList_toList]
    rfl
  have hempty : ∀ step ∈ [""], PlainStep step := by decide
  have hroot : normalizePath (path ++ ['/']) = "/" ++ "/".intercalate (left ++ [""]) := by
    rw [normalizePath, hbefore [] (by simp), List.splitOnP_nil, List.map_append]
    exact congrArg _ (congrArg _ (hleft [""] (by simp) hempty))
  have hbelow : normalizePath (path ++ '/' :: ("/".intercalate steps).toList) =
      "/" ++ "/".intercalate (left ++ steps) := by
    rw [normalizePath, hbefore _ (not_mem_intercalate h (by decide) (by decide)),
      splitOnP_intercalate hne h, List.map_append, hself, hleft steps hne h]
  rw [hroot, hbelow]
  by_cases hleft : left = []
  · simp [hleft]
  · rw [String.intercalate_append_of_ne_nil hleft hne,
      String.intercalate_append_of_ne_nil hleft (by simp)]
    simp [String.append_assoc]

/-! ## Host, path and query -/

section Stop

variable {p : Char → Bool} {c : Char} (hc : p c = false) (before after : List Char)

include hc

theorem takeWhile_stop : (before ++ c :: after).takeWhile p = (before ++ [c]).takeWhile p := by
  induction before with
  | nil => simp [hc]
  | cons d rest ih =>
      rw [List.cons_append, List.cons_append, List.takeWhile_cons, List.takeWhile_cons, ih]

theorem dropWhile_stop :
    (before ++ c :: after).dropWhile p = before.dropWhile p ++ c :: after := by
  induction before with
  | nil => simp [hc]
  | cons d rest ih =>
      rw [List.cons_append, List.dropWhile_cons, List.dropWhile_cons]
      split
      · exact ih
      · rfl

end Stop

/-- No query, or one whose characters stand for themselves. -/
def PlainQuery (query : List Char) : Prop :=
  query = [] ∨ ∃ rest, query = '?' :: rest ∧ ∀ c ∈ rest, standsInAddress c = true

theorem PlainQuery.encodeQuery {query : List Char} (h : PlainQuery query) :
    encodeQuery query = String.ofList query := by
  rcases h with rfl | ⟨rest, rfl, hrest⟩
  · rfl
  · rw [Url.encodeQuery, encodeWhere_self fun c hc => (kept_of_stands (hrest c hc)).2.2]
    exact (@String.ofList_append ['?'] rest).symm

theorem PlainQuery.not_hash {query : List Char} (h : PlainQuery query) : '#' ∉ query := by
  rcases h with rfl | ⟨rest, rfl, hrest⟩
  · nofun
  · intro hmem
    rcases List.mem_cons.mp hmem with heq | hmem
    · exact absurd heq (by decide)
    · exact ne_of_stands (hrest _ hmem) (by decide) rfl

/-- Behind an address without a query, the query begins where it is put. -/
theorem PlainQuery.split {query : List Char} (h : PlainQuery query) {path : List Char}
    (hpath : '?' ∉ path) :
    (path ++ query).takeWhile (· != '?') = path ∧ (path ++ query).dropWhile (· != '?') = query := by
  have hall : ∀ c ∈ path, (c != '?') = true := fun c hc =>
    bne_iff_ne.mpr fun heq => hpath (heq ▸ hc)
  rw [List.takeWhile_append_of_pos hall, List.dropWhile_append_of_pos hall]
  rcases h with rfl | ⟨rest, rfl, -⟩ <;> simp

variable {before : List Char} {steps : List String} {query : List Char} {url : Url}

theorem takeWhile_no_hash {cs : List Char} (h : '#' ∉ cs) : cs.takeWhile (· != '#') = cs :=
  List.takeWhile_eq_self_iff.mpr fun _ hc => bne_iff_ne.mpr fun heq => h (heq ▸ hc)

theorem ofHierarchy?_append (hmark : '?' ∉ before) (hhash : '#' ∉ before) (hne : steps ≠ [])
    (hsteps : ∀ step ∈ steps, PlainStep step) (hquery : PlainQuery query)
    (h : ofHierarchy? (before ++ ['/']) = some url) :
    ofHierarchy? (before ++ '/' :: (("/".intercalate steps).toList ++ query)) =
      some { url with
        target := url.target ++ ("/".intercalate steps ++ String.ofList query) } := by
  have hslash : (fun c => !endsAuthority c) '/' = false := rfl
  obtain ⟨path, hpath⟩ : ∃ path, before.dropWhile (fun c => !endsAuthority c) = path := ⟨_, rfl⟩
  have hsub : ∀ c ∈ path, c ∈ before := hpath ▸ (List.dropWhile_sublist _).subset
  have hdrop := dropWhile_stop (p := fun c => !endsAuthority c) hslash before
  rw [hpath] at hdrop
  have hsteps_mark := not_mem_intercalate hsteps (d := '?') (by decide) (by decide)
  have hsteps_hash := not_mem_intercalate hsteps (d := '#') (by decide) (by decide)
  have hpath_mark : '?' ∉ path := fun hmem => hmark (hsub _ hmem)
  have hpath_hash : '#' ∉ path := fun hmem => hhash (hsub _ hmem)
  have hroot_hash : (path ++ ['/']).takeWhile (· != '#') = path ++ ['/'] :=
    takeWhile_no_hash (by simp [hpath_hash])
  have hbelow_hash :
      (path ++ '/' :: (("/".intercalate steps).toList ++ query)).takeWhile (· != '#') =
      path ++ '/' :: ("/".intercalate steps).toList ++ query := by
    rw [List.append_assoc, List.cons_append, takeWhile_no_hash]
    simp [-String.toList_intercalate, hpath_hash, hsteps_hash, hquery.not_hash]
  have hroot_mark : '?' ∉ path ++ ['/'] := by simp [hpath_mark]
  have hbelow_mark : '?' ∉ path ++ '/' :: ("/".intercalate steps).toList := by
    simp [-String.toList_intercalate, hpath_mark, hsteps_mark]
  obtain ⟨hroot_path, hroot_query⟩ := PlainQuery.split (.inl rfl) hroot_mark
  obtain ⟨hbelow_path, hbelow_query⟩ := hquery.split hbelow_mark
  unfold ofHierarchy? at h ⊢
  dsimp only at h ⊢
  rw [List.append_nil] at hroot_path hroot_query
  rw [hdrop, hroot_hash, hroot_path, hroot_query] at h
  rw [takeWhile_stop (p := fun c => !endsAuthority c) hslash, hdrop, hbelow_hash, hbelow_path,
    hbelow_query, normalizePath_append path hne hsteps, hquery.encodeQuery]
  split at h
  next => cases h
  next hhost =>
    obtain rfl := Option.some.inj h
    rw [if_neg hhost]
    simp [encodeQuery, String.append_assoc]

/-! ## Scheme and blanks -/

theorem dropScheme?_eq_some {scheme : String} {cs rest : List Char}
    (h : dropScheme? scheme cs = some rest) :
    (scheme.length ≤ cs.length ∧ ∃ first, cs = first ++ rest) ∧
      ∀ tail, dropScheme? scheme (cs ++ tail) = some (rest ++ tail) := by
  unfold dropScheme? at h ⊢
  dsimp only at h ⊢
  split at h
  next hscheme =>
    obtain rfl := Option.some.inj h
    have hlength : scheme.length ≤ cs.length := by
      have hcount := congrArg List.length hscheme
      rw [List.length_map, List.length_take, String.length_toList] at hcount
      omega
    refine ⟨⟨hlength, _, (List.take_append_drop _ cs).symm⟩, fun tail => ?_⟩
    rw [List.take_append_of_le_length hlength, if_pos hscheme,
      List.drop_append_of_le_length hlength]
  next => cases h

theorem dropScheme?_append_eq_none {scheme : String} {cs : List Char}
    (h : dropScheme? scheme cs = none) (hlength : scheme.length ≤ cs.length) (tail : List Char) :
    dropScheme? scheme (cs ++ tail) = none := by
  unfold dropScheme? at h ⊢
  dsimp only at h ⊢
  rw [List.take_append_of_le_length hlength]
  split at h
  next => cases h
  next hscheme => rw [if_neg hscheme]

/-- What follows the scheme is an end of the address, and grows with it. -/
theorem afterScheme?_eq_some {cs rest : List Char} (h : afterScheme? cs = some rest)
    (hne : rest ≠ []) :
    (∃ first, cs = first ++ rest) ∧ ∀ tail, afterScheme? (cs ++ tail) = some (rest ++ tail) := by
  obtain ⟨found, hscheme, hfound⟩ := Option.map_eq_some_iff.mp h
  have hslashes : ∀ tail, (found ++ tail).dropWhile (fun c => c == '/' || c == '\\') =
      rest ++ tail := by
    intro tail
    rw [List.dropWhile_append, hfound, if_neg (by simp [hne])]
  have hsuffix : ∃ first, found = first ++ rest :=
    ⟨_, (hfound ▸ List.takeWhile_append_dropWhile).symm⟩
  have hdropped : (∃ first, cs = first ++ found) ∧ ∀ tail,
      (dropScheme? "http://" (cs ++ tail) <|> dropScheme? "https://" (cs ++ tail)) =
        some (found ++ tail) := by
    cases hplain : dropScheme? "http://" cs with
    | some after =>
        rw [hplain] at hscheme
        obtain rfl := Option.some.inj hscheme
        obtain ⟨⟨-, hfirst⟩, happend⟩ := dropScheme?_eq_some hplain
        exact ⟨hfirst, fun tail => by rw [happend]; rfl⟩
    | none =>
        rw [hplain] at hscheme
        obtain ⟨⟨hlength, hfirst⟩, happend⟩ :=
          dropScheme?_eq_some (show dropScheme? "https://" cs = some found from hscheme)
        refine ⟨hfirst, fun tail => ?_⟩
        -- The longer scheme was there, so the address is long enough for the shorter one.
        have hshort : "http://".length ≤ cs.length := Nat.le_trans (by decide) hlength
        rw [dropScheme?_append_eq_none hplain hshort, happend]
        rfl
  obtain ⟨⟨scheme, hcs⟩, happend⟩ := hdropped
  obtain ⟨first, hfirst⟩ := hsuffix
  refine ⟨⟨scheme ++ first, by rw [hcs, hfirst, List.append_assoc]⟩, fun tail => ?_⟩
  rw [afterScheme?, happend, Option.map_some, hslashes]

/-- What is put behind a slash stays when blanks are dropped. -/
theorem exists_clean (text : List Char) : ∃ cleaned, (∀ c ∈ cleaned, c ∈ text) ∧
    ∀ tail, (∀ c ∈ tail, isControlOrSpace c = false) →
      clean (text ++ '/' :: tail) = cleaned ++ '/' :: tail := by
  have hslash : isControlOrSpace '/' = false := by decide
  refine ⟨(text.dropWhile isControlOrSpace).filter fun c => c != '\t' && c != '\n' && c != '\r',
    fun c hc => (List.dropWhile_sublist _).subset (List.mem_of_mem_filter hc), fun tail htail => ?_⟩
  have htail : ∀ c ∈ '/' :: tail, isControlOrSpace c = false :=
    List.forall_mem_cons.mpr ⟨hslash, htail⟩
  have hkept : ∀ c ∈ '/' :: tail, (c != '\t' && c != '\n' && c != '\r') = true := by
    intro c hc
    have hne : ∀ d, isControlOrSpace d = true → (c != d) = true := by
      rintro d hd
      refine bne_iff_ne.mpr ?_
      rintro rfl
      exact Bool.false_ne_true ((htail c hc).symm.trans hd)
    simp [hne '\t' (by decide), hne '\n' (by decide), hne '\r' (by decide)]
  rw [clean, dropWhile_stop hslash, Path.dropEndWhile_of_getLast?, List.filter_append,
    List.filter_eq_self.mpr hkept]
  intro c hc
  rw [List.getLast?_append_of_ne_nil _ (List.cons_ne_nil _ _)] at hc
  exact htail c (List.mem_of_getLast? hc)

theorem not_isControlOrSpace (hsteps : ∀ step ∈ steps, PlainStep step) (hquery : PlainQuery query) :
    ∀ c ∈ ("/".intercalate steps).toList ++ query, isControlOrSpace c = false := by
  intro c hc
  rcases List.mem_append.mp hc with hstep | hlater
  · rcases stands_or_slash hsteps c hstep with hstands | rfl
    · exact (kept_of_stands hstands).1
    · decide
  · rcases hquery with rfl | ⟨rest, rfl, hrest⟩
    · cases hlater
    · rcases List.mem_cons.mp hlater with rfl | hmem
      · decide
      · exact (kept_of_stands (hrest c hmem)).1

/-- Steps and a query below an address are found unchanged behind its target. -/
theorem parse_below {base : String} (hmark : '?' ∉ base.toList) (hhash : '#' ∉ base.toList)
    (hroot : parse (base ++ "/") = some url) (hne : steps ≠ [])
    (hsteps : ∀ step ∈ steps, PlainStep step) (hquery : PlainQuery query) :
    parse (base ++ "/" ++ ("/".intercalate steps ++ String.ofList query)) =
      some { url with
        target := url.target ++ ("/".intercalate steps ++ String.ofList query) } := by
  obtain ⟨cleaned, hsub, hclean⟩ := exists_clean base.toList
  have htext : ∀ tail : String,
      (base ++ "/" ++ tail).toList = base.toList ++ '/' :: tail.toList := by
    simp
  have hempty : (base ++ "/").toList = base.toList ++ ['/'] := by simp
  rw [parse, hempty, hclean [] nofun] at hroot
  obtain ⟨rest, hrest, hhost⟩ := Option.bind_eq_some_iff.mp hroot
  have hsome : rest ≠ [] := by
    rintro rfl
    cases hhost
  obtain ⟨⟨first, hfirst⟩, happend⟩ := afterScheme?_eq_some hrest hsome
  obtain ⟨before, rfl, hbefore⟩ :
      ∃ before, rest = before ++ ['/'] ∧ ∀ c ∈ before, c ∈ base.toList := by
    rw [← List.dropLast_concat_getLast hsome, ← List.append_assoc] at hfirst
    obtain ⟨hcleaned, hlast⟩ := List.append_inj' hfirst rfl
    refine ⟨rest.dropLast, ?_, fun c hc => hsub c (hcleaned ▸ List.mem_append_right first hc)⟩
    rw [hlast, List.dropLast_concat_getLast hsome]
  have hbelow := ofHierarchy?_append (fun hmem => hmark (hbefore _ hmem))
    (fun hmem => hhash (hbefore _ hmem)) hne hsteps hquery hhost
  have hlonger := happend (("/".intercalate steps).toList ++ query)
  rw [List.append_assoc, List.append_assoc, List.singleton_append] at hlonger
  rw [parse, htext, String.toList_append, String.toList_ofList,
    hclean _ (not_isControlOrSpace hsteps hquery), hlonger]
  exact hbelow

end Workbench.Url
