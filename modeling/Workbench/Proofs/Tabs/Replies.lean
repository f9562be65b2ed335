import Workbench.Proofs.Desk.Tickets

/-! # Results for different tabs

The result of a request concerns the tab that asked for it and no other. So results for
different tabs can be applied in any order: the same is told about each of them, and the bar
is the same in the end. -/

namespace Workbench

namespace Tab

/-- What is told of a result applied to the tab at a position, and what it makes of the tab. -/
def answeredWith (reply : Reply) (index : Nat) (tab : Tab) : TabOutcome × Tab :=
  match reply.result with
  | .refresh result => tab.applyRefresh reply.id result index
  | .save result => tab.applySave reply.id result index

theorem answeredBy_answeredWith (reply : Reply) (index : Nat) (tab : Tab) :
    tab.AnsweredBy reply (tab.answeredWith reply index).2 := by
  unfold AnsweredBy answeredWith
  cases reply.result with
  | refresh result => exact tab.refreshed_applyRefresh reply.id result index
  | save result => exact tab.saveAnswered_applySave reply.id result index

end Tab

namespace TabBar

variable {bar after : TabBar} {reply first second : Reply} {index : Nat} {tab : Tab}

/-! ## One result -/

/-- What is told of a result, and the bar after it was applied. -/
def replied (bar : TabBar) (reply : Reply) : TabOutcome × TabBar :=
  bar.answer reply.tab (Tab.answeredWith reply)

/-- A result is never refused. -/
theorem apply_reply (bar : TabBar) (reply : Reply) :
    bar.apply reply.action = .ok (bar.replied reply) := by
  unfold Reply.action replied Tab.answeredWith
  cases reply.result <;> rfl

theorem replied_of_closed (h : bar.findId? reply.tab = none) :
    bar.replied reply = (.dropped .tabClosed, bar) := by
  rw [replied, answer, h]

theorem replied_of_open (h : bar.findId? reply.tab = some index)
    (htab : bar.tabs[index]? = some tab) :
    bar.replied reply = ((tab.answeredWith reply index).1,
      { bar with tabs := bar.tabs.set index (tab.answeredWith reply index).2 }) := by
  rw [replied, answer, h]
  dsimp only
  rw [htab]

/-- A result is applied to the tab that asked for it, and to nothing else. -/
structure ChangedOnlyBy (bar : TabBar) (reply : Reply) (after : TabBar) : Prop where
  there : ∀ (index : Nat) (tab : Tab), bar.tabs[index]? = some tab → tab.id = reply.tab →
    ∃ tab', after.tabs[index]? = some tab' ∧ tab.AnsweredBy reply tab'
  elsewhere : ∀ (index : Nat) (tab : Tab), bar.tabs[index]? = some tab → tab.id ≠ reply.tab →
    after.tabs[index]? = some tab
  ids : after.ids = bar.ids
  active : after.active = bar.active
  lastId : after.lastId = bar.lastId

theorem changedOnlyBy_replied (hdistinct : bar.ids.Nodup) (reply : Reply) :
    bar.ChangedOnlyBy reply (bar.replied reply).2 := by
  cases hfind : bar.findId? reply.tab with
  | none =>
      have hclosed := findId?_eq_none_iff.mp hfind
      rw [replied_of_closed hfind]
      exact
        { there := fun _ tab htab hid => absurd hid (hclosed tab (List.mem_of_getElem? htab))
          elsewhere := fun _ _ htab _ => htab
          ids := rfl
          active := rfl
          lastId := rfl }
  | some position =>
      obtain ⟨asking, hasking, hid⟩ := findId?_eq_some hfind
      have hlt : position < bar.tabs.length := (List.getElem?_eq_some_iff.mp hasking).1
      have hanswered := asking.answeredBy_answeredWith reply position
      rw [replied_of_open hfind hasking]
      constructor
      case there =>
        intro index tab htab hsame
        obtain rfl := index_eq_of_id_eq hdistinct hasking htab (hid.trans hsame.symm)
        obtain rfl := Option.some.inj (hasking.symm.trans htab)
        exact ⟨_, List.getElem?_set_self hlt, hanswered⟩
      case elsewhere =>
        intro index tab htab hne
        have hindex : position ≠ index := by
          rintro rfl
          exact hne (Option.some.inj (hasking.symm.trans htab) ▸ hid)
        exact (List.getElem?_set_ne hindex).trans htab
      case ids => exact map_set_of_eq (·.id) hasking hanswered.id_eq
      case active => rfl
      case lastId => rfl

/-! ## Two results -/

/-- Where a number is found is up to the numbers alone. -/
theorem findId?_eq_of_ids_eq (h : after.ids = bar.ids) (id : TabId) :
    after.findId? id = bar.findId? id := by
  have hfind : ∀ bar : TabBar, bar.findId? id = bar.ids.findIdx? (· == id) := by
    intro bar
    rw [ids, List.findIdx?_map]
    rfl
  rw [hfind, hfind, h]

/-- What is told of a result does not depend on results that came before it for other tabs. -/
theorem fst_replied_replied (hdistinct : bar.ids.Nodup) (hother : first.tab ≠ second.tab) :
    ((bar.replied first).2.replied second).1 = (bar.replied second).1 := by
  have hfirst := changedOnlyBy_replied hdistinct first
  have hfind := findId?_eq_of_ids_eq hfirst.ids second.tab
  cases hsecond : bar.findId? second.tab with
  | none => rw [replied_of_closed (hfind.trans hsecond), replied_of_closed hsecond]
  | some index =>
      obtain ⟨tab, htab, hid⟩ := findId?_eq_some hsecond
      have hkept := hfirst.elsewhere index tab htab (hid ▸ hother.symm)
      rw [replied_of_open (hfind.trans hsecond) hkept, replied_of_open hsecond htab]

theorem snd_replied_comm (hdistinct : bar.ids.Nodup) (hother : first.tab ≠ second.tab) :
    ((bar.replied first).2.replied second).2 = ((bar.replied second).2.replied first).2 := by
  have hfirst := changedOnlyBy_replied hdistinct first
  have hsecond := changedOnlyBy_replied hdistinct second
  have hfind := findId?_eq_of_ids_eq hfirst.ids second.tab
  have hfind' := findId?_eq_of_ids_eq hsecond.ids first.tab
  cases hsource : bar.findId? first.tab with
  | none =>
      rw [replied_of_closed hsource, replied_of_closed (hfind'.trans hsource)]
  | some source =>
      cases htarget : bar.findId? second.tab with
      | none =>
          rw [replied_of_closed htarget, replied_of_closed (hfind.trans htarget)]
      | some target =>
          obtain ⟨tab, htab, hid⟩ := findId?_eq_some hsource
          obtain ⟨other, hfound, hid'⟩ := findId?_eq_some htarget
          have hne : source ≠ target := by
            rintro rfl
            rw [← hid, ← hid', Option.some.inj (htab.symm.trans hfound)] at hother
            exact hother rfl
          -- Each of the two tabs is still there as it was when its result comes second.
          have hkept := hfirst.elsewhere target other hfound (hid' ▸ hother.symm)
          have hkept' := hsecond.elsewhere source tab htab (hid ▸ hother)
          rw [replied_of_open (hfind.trans htarget) hkept,
            replied_of_open (hfind'.trans hsource) hkept', replied_of_open hsource htab,
            replied_of_open htarget hfound]
          dsimp only
          rw [List.set_comm _ _ hne]

/-- **Results for different tabs commute.** Applied in either order they lead to the same bar,
and the same is told about each of them. Neither changes more than the tab that asked for it. -/
theorem replies_commute (hdistinct : bar.ids.Nodup) (hother : first.tab ≠ second.tab) :
    ∃ (told told' : TabOutcome) (once once' twice : TabBar),
      bar.apply first.action = .ok (told, once) ∧
      once.apply second.action = .ok (told', twice) ∧
      bar.apply second.action = .ok (told', once') ∧
      once'.apply first.action = .ok (told, twice) ∧
      bar.ChangedOnlyBy first once ∧ bar.ChangedOnlyBy second once' := by
  have htold := fst_replied_replied hdistinct hother
  have htold' := fst_replied_replied hdistinct hother.symm
  have htwice := snd_replied_comm hdistinct hother
  refine ⟨(bar.replied first).1, (bar.replied second).1, (bar.replied first).2,
    (bar.replied second).2, ((bar.replied first).2.replied second).2, bar.apply_reply first, ?_,
    bar.apply_reply second, ?_, changedOnlyBy_replied hdistinct first,
    changedOnlyBy_replied hdistinct second⟩
  · rw [apply_reply, ← htold]
  · rw [apply_reply, ← htold', htwice]

/-- The first tab is being refreshed, the second was edited again while it is being saved. -/
def refreshingAndSaving : TabBar :=
  empty.run
    [.openTab (.ofPath "/plan") "one" .utf8 (some "v1"),
     .openTab (.ofPath "/notes") "one" .utf8 (some "v1"),
     .openTab (.ofPath "/draft") "one" .utf8 (some "v1"),
     .refreshStarted 0 1, .edit 1 "two" 5, .saveStarted 1 2, .edit 1 "three" 6]

/-- Another version of the first file was read. -/
def planRead : Reply :=
  { tab := 1
    id := 1
    result := .refresh (.fetched
      { path := "/plan", content := "new", encoding := .utf8, etag := "v2", size := 3
        modified := none }) }

/-- The second file was stored. -/
def notesStored : Reply :=
  { tab := 2
    id := 2
    result := .save (.written { path := "/notes", size := 3, modified := none, etag := "v2" }) }

theorem adoptedBesideSaved_commute :
    refreshingAndSaving.ids.Nodup ∧ planRead.tab ≠ notesStored.tab ∧
      ∃ once once' twice : TabBar,
        refreshingAndSaving.apply planRead.action = .ok (.adopted 0, once) ∧
        once.apply notesStored.action = .ok (.saved 1 true, twice) ∧
        refreshingAndSaving.apply notesStored.action = .ok (.saved 1 true, once') ∧
        once'.apply planRead.action = .ok (.adopted 0, twice) ∧
        refreshingAndSaving.ChangedOnlyBy planRead once ∧
        refreshingAndSaving.ChangedOnlyBy notesStored once' := by
  have hdistinct : refreshingAndSaving.ids.Nodup := by decide +kernel
  have hother : planRead.tab ≠ notesStored.tab := by decide
  have hread : (refreshingAndSaving.replied planRead).1 = .adopted 0 := by decide +kernel
  have hstored : (refreshingAndSaving.replied notesStored).1 = .saved 1 true := by decide +kernel
  obtain ⟨told, told', once, once', twice, hfirst, hsecond, hfirst', hsecond', honly⟩ :=
    replies_commute hdistinct hother
  have htold := hfirst
  rw [apply_reply] at htold
  obtain rfl : told = .adopted 0 := (congrArg Prod.fst (Except.ok.inj htold)).symm.trans hread
  have htold' := hfirst'
  rw [apply_reply] at htold'
  obtain rfl : told' = .saved 1 true :=
    (congrArg Prod.fst (Except.ok.inj htold')).symm.trans hstored
  exact ⟨hdistinct, hother, once, once', twice, hfirst, hsecond, hfirst', hsecond', honly⟩

/-! ## Any number of results -/

theorem next_reply (bar : TabBar) (reply : Reply) :
    bar.next reply.action = (bar.replied reply).2 :=
  next_of_ok (bar.apply_reply reply)

/-- The same is told of a result as if no result for another tab had come before it. -/
theorem fst_replied_run (hdistinct : bar.ids.Nodup) {replies : List Reply}
    (hothers : ∀ other ∈ replies, other.tab ≠ reply.tab) :
    ((bar.run (replies.map Reply.action)).replied reply).1 = (bar.replied reply).1 := by
  induction replies generalizing bar with
  | nil => rfl
  | cons other rest ih =>
      obtain ⟨hother, hrest⟩ := List.forall_mem_cons.mp hothers
      have hids := (changedOnlyBy_replied hdistinct other).ids
      rw [List.map_cons, run_cons, next_reply, ih (hids ▸ hdistinct) hrest,
        fst_replied_replied hdistinct hother]

/-- Results for different tabs lead to the same bar in any order. -/
theorem run_replies_perm (hdistinct : bar.ids.Nodup) {replies replies' : List Reply}
    (hdifferent : (replies.map (·.tab)).Nodup) (hperm : replies.Perm replies') :
    bar.run (replies.map Reply.action) = bar.run (replies'.map Reply.action) := by
  induction hperm generalizing bar with
  | nil => rfl
  | cons reply _ ih =>
      have hids := (changedOnlyBy_replied hdistinct reply).ids
      rw [List.map_cons, List.map_cons, run_cons, run_cons, next_reply]
      exact ih (hids ▸ hdistinct) (List.nodup_cons.mp hdifferent).2
  | swap first second rest =>
      have hother : second.tab ≠ first.tab := by
        intro heq
        exact (List.nodup_cons.mp hdifferent).1 (List.mem_cons.mpr (.inl heq))
      simp only [List.map_cons, run_cons, next_reply]
      rw [snd_replied_comm hdistinct hother]
  | trans hfirst _ ih ih' =>
      exact (ih hdistinct hdifferent).trans
        (ih' hdistinct ((hfirst.map _).nodup_iff.mp hdifferent))

end TabBar

end Workbench
