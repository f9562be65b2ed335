import Workbench.Proofs.Workspace.Run
import Workbench.Session.Script

/-! # The course of a session

A session is a course of events. Each turn adds its own events to it, in the order in which
they happen, until a command tells the session to leave or no line is left. What an event
does to the workspace are operations of the workspace, so whatever holds after every run of a
workspace holds at every moment of a session. -/

namespace Workbench

variable {σ : Type}

namespace Command

/-- The commands up to and with the first `exit`. -/
def upToExit : List Command → List Command
  | [] => []
  | .exit :: _ => [.exit]
  | command :: rest => command :: upToExit rest

theorem upToExit_cons {command : Command} (h : command ≠ .exit) (rest : List Command) :
    upToExit (command :: rest) = command :: upToExit rest := by
  cases command <;> first | rfl | exact absurd rfl h

/-- What a command other than `exit` does to the workspace. -/
def operations (now : Nat) : Command → List (Workspace.Operation σ)
  | .openPath path => [.step (.openPath path)]
  | .click index => [.step (.click index)]
  | .edit index content => [.step (.edit index content now)]
  | .save index => [.step (.save index)]
  | .close index => [.step (.close index)]
  | .closeOthers index => [.step (.closeOthers index)]
  | .closeAll => [.step .closeAll]
  | .move source target => [.step (.move source target)]
  | .resolve index action => [.step (.resolve index action)]
  | .list folder => [.step (.list (Path.normalize folder))]
  | .create path => [.step (.create path)]
  | .rename oldPath newPath => [.rename oldPath newPath]
  | .delete path => [.delete path]
  | .upload path content => [.step (.upload [.ofText path content])]
  | .pump => [.pump]
  | .settle => [.settle]
  | .tabs | .help | .exit => []

end Command

namespace Session

/-- What can happen to a session. -/
inductive Event (σ : Type)
  /-- Something happens on the side of the service. -/
  | arrived (arrival : Arrival σ)
  /-- A line is no command. -/
  | refused (error : CommandError)
  | executed (now : Nat) (command : Command)
  /-- The results that have come are applied. -/
  | pumped
  /-- What is done between two commands. -/
  | ticked (now : Nat)
  /-- The input has ended. -/
  | concluded

namespace Event

/-- The session is finished by the event. -/
def Finishes : Event σ → Prop
  | .executed _ .exit | .concluded => True
  | _ => False

theorem finishes_executed_iff {now : Nat} {command : Command} :
    (executed now command : Event σ).Finishes ↔ command = .exit := by
  cases command <;> simp [Finishes]

/-- The command that is carried out. -/
def command? : Event σ → Option Command
  | .executed _ command => some command
  | _ => none

/-- What an event that does not finish the session does to the workspace. -/
def operations : Event σ → List (Workspace.Operation σ)
  | .arrived (.performed position) => [.step (.release position)]
  | .arrived .allPerformed => [.releaseAll]
  | .arrived (.changed change) => [.step (.outside change)]
  | .executed now command => command.operations now
  | .pumped => [.pump]
  | .ticked now => [.pump, .step (.autosave now)]
  | .refused _ | .concluded => []

end Event

end Session

namespace Turn

open Session (Event)

/-- The command that the line of a turn spells. -/
def command? (t : Turn σ) : Option Command :=
  match t.input with
  | .unreadable => none
  | .text line =>
      match Command.parse line with
      | .ok command => command
      | .error _ => none

/-- What happens after the command of a turn was carried out. -/
def bookkeeping (t : Turn σ) : List (Event σ) :=
  t.during.map .arrived ++ t.amid.flatMap (fun arrivals => .pumped :: arrivals.map .arrived) ++
    [.ticked t.later]

/-- What happens in a turn. -/
def events (t : Turn σ) : List (Event σ) :=
  t.before.map .arrived ++
    match t.input with
    | .unreadable => []
    | .text line =>
        match Command.parse line with
        | .error error => [.refused error]
        | .ok none => []
        | .ok (some .exit) => [.executed t.now .exit]
        | .ok (some command) => .executed t.now command :: t.bookkeeping

/-- Whether a session goes on after a turn. -/
def next (t : Turn σ) : Session.Continuation :=
  match t.input with
  | .unreadable => .broken .unreadableInput
  | .text line =>
      match Command.parse line with
      | .ok (some .exit) => .left
      | .ok (some _) | .ok none | .error _ => .goOn

/-- The events of some turns, as long as the session goes on, and of the end of its input. -/
def course (last : List (Arrival σ)) : List (Turn σ) → List (Event σ)
  | [] => last.map .arrived ++ [.concluded]
  | t :: rest =>
      t.events ++ match t.next with
        | .goOn => course last rest
        | _ => []

/-- The line is a text. -/
def Readable (t : Turn σ) : Prop := ∃ line, t.input = .text line

theorem idle_of_mem_arrived {arrivals : List (Arrival σ)} {event : Event σ}
    (h : event ∈ arrivals.map .arrived) : event.command? = none ∧ ¬ event.Finishes := by
  obtain ⟨arrival, -, rfl⟩ := List.mem_map.mp h
  exact ⟨rfl, id⟩

theorem filterMap_arrived (arrivals : List (Arrival σ)) :
    (arrivals.map Event.arrived).filterMap Event.command? = [] :=
  List.filterMap_eq_nil_iff.mpr fun _ hevent => (idle_of_mem_arrived hevent).1

theorem idle_of_mem_bookkeeping {t : Turn σ} {event : Event σ} (h : event ∈ t.bookkeeping) :
    event.command? = none ∧ ¬ event.Finishes := by
  rcases List.mem_append.mp h with h | h
  · rcases List.mem_append.mp h with hduring | hamid
    · exact idle_of_mem_arrived hduring
    · obtain ⟨arrivals, -, hround⟩ := List.mem_flatMap.mp hamid
      rcases List.mem_cons.mp hround with rfl | harrived
      · exact ⟨rfl, id⟩
      · exact idle_of_mem_arrived harrived
  · obtain rfl := List.mem_singleton.mp h
    exact ⟨rfl, id⟩

/-- A turn whose line is a text ends the session with `exit`, or carries out its command, if
there is one, and lets the session go on. -/
theorem leaves_or_goes_on {t : Turn σ} (h : t.Readable) :
    (t.next = .left ∧ t.command? = some .exit ∧
        t.events = t.before.map .arrived ++ [.executed t.now .exit]) ∨
      (t.next = .goOn ∧ t.command? ≠ some .exit ∧
        t.events.filterMap Event.command? = t.command?.toList ∧
        ∀ event ∈ t.events, ¬ event.Finishes) := by
  obtain ⟨line, hline⟩ := h
  have hafter : t.bookkeeping.filterMap Event.command? = [] :=
    List.filterMap_eq_nil_iff.mpr fun event hevent => (idle_of_mem_bookkeeping hevent).1
  unfold next events command?
  rw [hline, List.filterMap_append, filterMap_arrived, List.forall_mem_append]
  dsimp only
  cases Command.parse line with
  | error error =>
      exact .inr ⟨rfl, nofun, rfl, fun event hevent => (idle_of_mem_arrived hevent).2,
        List.forall_mem_singleton.mpr id⟩
  | ok command =>
      cases command with
      | none =>
          exact .inr ⟨rfl, nofun, rfl, fun event hevent => (idle_of_mem_arrived hevent).2,
            List.forall_mem_nil _⟩
      | some command =>
          by_cases hexit : command = .exit
          · subst hexit
            exact .inl ⟨rfl, rfl, rfl⟩
          · -- With `hexit` in reach, this also takes the branch of any other command.
            simp only [true_and, List.nil_append]
            exact .inr ⟨fun heq => hexit (Option.some.inj heq), congrArg (command :: ·) hafter,
              fun event hevent => (idle_of_mem_arrived hevent).2,
              List.forall_mem_cons.mpr ⟨mt Event.finishes_executed_iff.mp hexit,
                fun event hevent => (idle_of_mem_bookkeeping hevent).2⟩⟩

/-- If every line is a text, the commands of a session are those that its lines spell, up to
the first `exit`. -/
theorem commands_course {turns : List (Turn σ)} (hreadable : ∀ t ∈ turns, t.Readable)
    (last : List (Arrival σ)) :
    (course last turns).filterMap Event.command? =
      Command.upToExit (turns.filterMap command?) := by
  induction turns with
  | nil =>
      rw [course, List.filterMap_append, filterMap_arrived]
      rfl
  | cons t rest ih =>
      obtain ⟨hfirst, hrest⟩ := List.forall_mem_cons.mp hreadable
      rw [course, List.filterMap_append]
      rcases leaves_or_goes_on hfirst with
        ⟨hnext, hexit, hevents⟩ | ⟨hnext, hstays, hevents, -⟩
      · rw [hnext, hevents, List.filterMap_append, filterMap_arrived,
          List.filterMap_cons_some hexit]
        rfl
      · rw [hnext, hevents, ih hrest]
        cases hcommand : t.command? with
        | none =>
            rw [List.filterMap_cons_none hcommand]
            rfl
        | some command =>
            rw [hcommand, ne_eq, Option.some.injEq] at hstays
            rw [List.filterMap_cons_some hcommand, Command.upToExit_cons hstays]
            rfl

/-- If every line is a text, a session is finished once, at last. -/
theorem exists_course_eq {turns : List (Turn σ)} (hreadable : ∀ t ∈ turns, t.Readable)
    (last : List (Arrival σ)) :
    ∃ earlier ending, course last turns = earlier ++ [ending] ∧ ending.Finishes ∧
      ∀ event ∈ earlier, ¬ event.Finishes := by
  induction turns with
  | nil =>
      exact ⟨last.map .arrived, .concluded, rfl, trivial,
        fun event hevent => (idle_of_mem_arrived hevent).2⟩
  | cons t rest ih =>
      obtain ⟨hfirst, hrest⟩ := List.forall_mem_cons.mp hreadable
      obtain ⟨earlier, ending, hcourse, hends, hearlier⟩ := ih hrest
      rw [course]
      rcases leaves_or_goes_on hfirst with ⟨hnext, -, hevents⟩ | ⟨hnext, -, -, honce⟩
      · rw [hnext, hevents]
        exact ⟨t.before.map .arrived, .executed t.now .exit, List.append_nil _, trivial,
          fun event hevent => (idle_of_mem_arrived hevent).2⟩
      · rw [hnext]
        exact ⟨t.events ++ earlier, ending, by simp [hcourse], hends,
          List.forall_mem_append.mpr ⟨honce, hearlier⟩⟩

end Turn

namespace Shell

variable {α : Type} (shell : Shell σ)

theorem snd_onDesk (result : Except TabError α × Desk σ) (reply : α → Desk σ → String) :
    (shell.onDesk result reply).2 = shell.withDesk result.2 := by
  rcases result with ⟨_ | _, _⟩ <;> rfl

theorem snd_onTree (result : Except TreeError α × Workspace σ) (reply : α → Workspace σ → String) :
    (shell.onTree result reply).2 = { shell with workspace := result.2 } := by
  rcases result with ⟨_ | _, _⟩ <;> rfl

/-- A command other than `exit` changes nothing but the workspace. -/
theorem snd_execute [FileService σ] (now : Nat) {command : Command} (h : command ≠ .exit) :
    (shell.execute now command).2 =
      { shell with
        workspace := (command.operations now).foldl Workspace.operate shell.workspace } := by
  cases command with
  | exit => exact absurd rfl h
  | click | closeAll | upload | tabs | pump | settle | help => rfl
  | list | create | rename | delete => exact shell.snd_onTree _ _
  | openPath | edit | save | close | closeOthers | move | resolve => exact shell.snd_onDesk _ _

end Shell

namespace Session

variable [FileService σ]

/-- The session after an event. -/
def undergo (s : Session σ) : Event σ → Session σ
  | .arrived arrival => s.arrive arrival
  | .refused error => s.reply s!"error: {error.message}"
  | .executed now command => s.command now command
  | .pumped => { s with shell := s.shell.withDesk s.shell.desk.pump.2 }
  | .ticked now => { s with shell := s.shell.tick now }
  | .concluded => s.conclude.2

theorem undergo_arrivals (s : Session σ) (arrivals : List (Arrival σ)) :
    (arrivals.map .arrived).foldl undergo s = arrivals.foldl arrive s :=
  List.foldl_map

theorem undergo_bookkeeping (s : Session σ) (t : Turn σ) :
    t.bookkeeping.foldl undergo s =
      (t.amid.foldl pumpAmid (t.during.foldl arrive s)).undergo (.ticked t.later) := by
  have hround : ∀ (s : Session σ) (arrivals : List (Arrival σ)),
      (Event.pumped :: arrivals.map .arrived).foldl undergo s = s.pumpAmid arrivals :=
    fun s arrivals => undergo_arrivals _ arrivals
  rw [Turn.bookkeeping, List.foldl_append, List.foldl_append, undergo_arrivals, List.foldl_flatMap]
  simp only [hround]
  rfl

/-- A turn amounts to its events. -/
theorem turn_eq (s : Session σ) (t : Turn σ) : s.turn t = (t.next, t.events.foldl undergo s) := by
  unfold turn Turn.next Turn.events
  rw [List.foldl_append, undergo_arrivals]
  dsimp only
  cases t.input with
  | unreadable => rfl
  | text line =>
      dsimp only
      cases Command.parse line with
      | error error => rfl
      | ok command =>
          cases command with
          | none => rfl
          | some command =>
              -- Only `exit` has no bookkeeping behind it.
              by_cases hexit : command = .exit
              · subst hexit
                rfl
              · simp only [List.foldl_cons, undergo_bookkeeping]
                rfl

/-- A session amounts to its course. -/
theorem snd_run (s : Session σ) (turns : List (Turn σ)) (last : List (Arrival σ)) :
    (s.run turns last).2 = (Turn.course last turns).foldl undergo s := by
  induction turns generalizing s with
  | nil =>
      rw [run, Turn.course, List.foldl_append, undergo_arrivals]
      rfl
  | cons t rest ih =>
      rw [run, turn_eq, Turn.course, List.foldl_append]
      cases t.next with
      | goOn => exact ih _
      | left => rfl
      | broken error => rfl

theorem shell_conclude (s : Session σ) : s.conclude.2.shell = s.shell.finish.2 := by
  unfold conclude
  rcases s.shell.finish with ⟨_ | _, _⟩ <;> rfl

theorem executed_conclude (s : Session σ) : s.conclude.2.executed = s.executed := by
  unfold conclude
  rcases s.shell.finish with ⟨_ | _, _⟩ <;> rfl

theorem fst_conclude {s : Session σ} {text : String} (h : s.shell.finish.1 = .ok text) :
    s.conclude.1 = .ok s.executed := by
  unfold conclude
  rcases hfinish : s.shell.finish with ⟨answer, shell⟩
  rw [hfinish] at h
  obtain rfl : answer = .ok text := h
  rfl

theorem executed_undergo (s : Session σ) (event : Event σ) :
    (s.undergo event).executed = s.executed + event.command?.toList.length := by
  cases event with
  | arrived arrival => cases arrival <;> rfl
  | concluded => exact s.executed_conclude
  | _ => rfl

/-- The commands that were carried out are counted. -/
theorem executed_foldl_undergo (s : Session σ) (events : List (Event σ)) :
    (events.foldl undergo s).executed =
      s.executed + (events.filterMap Event.command?).length := by
  induction events generalizing s with
  | nil => rfl
  | cons event rest ih =>
      rw [List.foldl_cons, ih, executed_undergo, List.filterMap_cons]
      cases event.command? with
      | none => rfl
      | some command => exact Nat.add_right_comm _ _ _

/-- A line that is no text breaks the session off before it is finished. -/
theorem breaks_off {earlier : List (Turn σ)} {t : Turn σ} (hreadable : ∀ t ∈ earlier, t.Readable)
    (hstays : ∀ t ∈ earlier, t.command? ≠ some .exit) (h : t.input = .unreadable)
    (rest : List (Turn σ)) (last : List (Arrival σ)) (s : Session σ) :
    (s.run (earlier ++ t :: rest) last).1 = .error .unreadableInput ∧
      ∀ event ∈ Turn.course last (earlier ++ t :: rest), ¬ event.Finishes := by
  induction earlier generalizing s with
  | nil =>
      have hnext : t.next = .broken .unreadableInput := by rw [Turn.next, h]
      have hevents : t.events = t.before.map .arrived := by rw [Turn.events, h, List.append_nil]
      rw [List.nil_append, run, turn_eq, Turn.course, hnext, hevents, List.append_nil]
      exact ⟨rfl, fun event hevent => (Turn.idle_of_mem_arrived hevent).2⟩
  | cons t' earlier ih =>
      obtain ⟨hfirst, hreadable⟩ := List.forall_mem_cons.mp hreadable
      obtain ⟨hstay, hstays⟩ := List.forall_mem_cons.mp hstays
      rw [List.cons_append, run, turn_eq, Turn.course]
      rcases Turn.leaves_or_goes_on hfirst with ⟨-, hexit, -⟩ | ⟨hnext, -, -, honce⟩
      · exact absurd hexit hstay
      · rw [hnext]
        obtain ⟨hanswer, hlater⟩ := ih hreadable hstays (t'.events.foldl undergo s)
        exact ⟨hanswer, List.forall_mem_append.mpr ⟨honce, hlater⟩⟩

/-- If every line is a text, a session tells how many commands were carried out, unless it
cannot be finished at the end of its input. -/
theorem fst_run {turns : List (Turn σ)} (hreadable : ∀ t ∈ turns, t.Readable) (s : Session σ)
    (last : List (Arrival σ)) :
    (s.run turns last).1 = .ok (s.run turns last).2.executed ∨
      ∃ earlier, Turn.course last turns = earlier ++ [.concluded] ∧
        s.run turns last = (earlier.foldl undergo s).conclude := by
  induction turns generalizing s with
  | nil =>
      refine .inr ⟨last.map .arrived, rfl, ?_⟩
      rw [undergo_arrivals]
      rfl
  | cons t rest ih =>
      obtain ⟨hfirst, hrest⟩ := List.forall_mem_cons.mp hreadable
      rw [run, turn_eq, Turn.course]
      rcases Turn.leaves_or_goes_on hfirst with ⟨hnext, -⟩ | ⟨hnext, -⟩
      · rw [hnext]
        exact .inl rfl
      · rw [hnext]
        refine (ih hrest _).imp_right ?_
        rintro ⟨earlier, hcourse, hrun⟩
        refine ⟨t.events ++ earlier, ?_, ?_⟩
        · dsimp only
          rw [hcourse, List.append_assoc]
        · rw [List.foldl_append]
          exact hrun

theorem shell_undergo (s : Session σ) {event : Event σ} (h : ¬ event.Finishes) :
    (s.undergo event).shell =
      { s.shell with workspace := event.operations.foldl Workspace.operate s.shell.workspace } := by
  cases event with
  | arrived arrival => cases arrival <;> rfl
  | executed now command => exact Shell.snd_execute _ _ (mt Event.finishes_executed_iff.mpr h)
  | concluded => exact absurd trivial h
  | _ => rfl

/-- Events that do not finish the session are operations of the workspace. -/
theorem shell_foldl_undergo (s : Session σ) {events : List (Event σ)}
    (h : ∀ event ∈ events, ¬ event.Finishes) :
    (events.foldl undergo s).shell =
      { s.shell with
        workspace :=
          (events.flatMap Event.operations).foldl Workspace.operate s.shell.workspace } := by
  induction events generalizing s with
  | nil => rfl
  | cons event rest ih =>
      obtain ⟨hevent, hrest⟩ := List.forall_mem_cons.mp h
      rw [List.foldl_cons, ih _ hrest, s.shell_undergo hevent, List.flatMap_cons, List.foldl_append]

/-- An event that finishes the session does so. -/
theorem shell_undergo_of_finishes (s : Session σ) {event : Event σ} (h : event.Finishes) :
    (s.undergo event).shell = s.shell.finish.2 := by
  cases event with
  | executed now command =>
      cases command with
      | exit => rfl
      | _ => exact h.elim
  | concluded => exact s.shell_conclude
  | _ => exact h.elim

end Session

end Workbench
