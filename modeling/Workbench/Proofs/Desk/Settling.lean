import Workbench.Proofs.Desk.Progress

/-! # Waiting until nothing is under way

Every applied result ends one request. It starts another one only for a tab that
leaves the queue for it, so the requests under way and the queued saves together
bound how many results can be applied before the desk is at rest. -/

namespace Workbench

namespace TabBar

theorem countP_set_add {tabs : List Tab} {index : Nat} {tab : Tab} (p : Tab → Bool)
    (hfound : tabs[index]? = some tab) (tab' : Tab) :
    (tabs.set index tab').countP p + (p tab).toNat = tabs.countP p + (p tab').toNat := by
  obtain ⟨hlt, rfl⟩ := List.getElem?_eq_some_iff.mp hfound
  have hpos : p tabs[index] = true → 0 < tabs.countP p := fun h =>
    List.countP_pos_iff.mpr ⟨_, List.getElem_mem hlt, h⟩
  rw [List.countP_set hlt]
  cases hold : p tabs[index] <;> cases p tab' <;> simp_all

end TabBar

namespace Desk

open TabBar

variable {σ : Type} {before after desk : Desk σ} {actions : List TabAction} {reply : Reply}
  {rest : List Reply}

/-- A bound for the results that are still to be applied. -/
def load (desk : Desk σ) : Nat := desk.inFlight + desk.queuedSaves

theorem load_eq (desk : Desk σ) :
    desk.load = desk.traffic.tickets.length + desk.bar.tabs.countP (·.saveQueued) := by
  rw [load, Traffic.length_tickets]
  rfl

theorem load_answered (hmailbox : before.traffic.mailbox = reply :: rest) :
    (before.answered reply rest).load + 1 = before.load := by
  have htickets := (Traffic.tickets_of_mailbox hmailbox).length_eq
  have hqueued : (before.answered reply rest).bar.tabs.countP (·.saveQueued) =
      before.bar.tabs.countP (·.saveQueued) := by
    change (before.bar.next reply.action).tabs.countP _ = _
    rcases before.bar.next_reply_cases reply with
      ⟨-, hsame⟩ | ⟨index, tab, tab', hfound, -, hanswered, hnext⟩
    · rw [hsame]
    · have hcount := countP_set_add (·.saveQueued) hfound tab'
      rw [hanswered.saveQueued_eq] at hcount
      rw [hnext]
      exact Nat.add_right_cancel hcount
  rw [load_eq, load_eq, hqueued, htickets, List.length_cons]
  change _ = (before.answered reply rest).traffic.tickets.length + 1 + _
  omega

/-- The turn of a queued save does not add to the load: a save that is started has
left the queue. -/
theorem Turn.load_le {id : TabId} (h : before.Turn id after actions) :
    after.load ≤ before.load := by
  rw [load_eq, load_eq]
  cases h with
  | passed hnone =>
      have hbar : after.bar = before.bar := hnone.bar
      exact Nat.le_of_eq (by rw [hbar, hnone.traffic])
  | @dropped index tab hfound _ _ hact =>
      have hbar : after.bar = before.bar.next (.cancelQueuedSave index) := hact.bar
      have hcount := countP_set_add (·.saveQueued) hfound { tab with saveQueued := false }
      rw [hbar, hact.traffic, next_cancelQueuedSave hfound]
      dsimp only at hcount ⊢
      simp only [Bool.toNat_false] at hcount
      omega
  | @started index tab _ hqueued hsends =>
      have hcount := countP_set_add (·.saveQueued) hsends.found
        (tab.waitingFor (before.lastRequest + 1) .save)
      rw [hsends.tabs, hsends.tickets.length_eq, List.length_cons]
      simp only [hqueued, Tab.waitingFor, Bool.toNat_true, Bool.toNat_false] at hcount ⊢
      omega

theorem Turn.applied_eq_nil {id : TabId} (h : before.Turn id after actions) :
    applied actions = [] := by
  cases h <;> rfl

theorem applied_reply (reply : Reply) (actions : List TabAction) :
    applied (reply.action :: actions) = reply.id :: applied actions := by
  unfold Reply.action
  split <;> rfl

/-- Every applied result lightens the load. -/
theorem load_deliver (h : desk.Coherent) :
    desk.deliver.load + (applied desk.deliverActions).length ≤ desk.load := by
  cases hmailbox : desk.traffic.mailbox with
  | nil =>
      simp only [deliver, deliverActions, hmailbox]
      exact Nat.le_refl _
  | cons reply rest =>
      obtain ⟨actions, hactions, hturn⟩ := turn_deliver h.numbered h.writable hmailbox
      have hle := hturn.load_le
      have hanswered := load_answered hmailbox
      rw [hactions, applied_reply, hturn.applied_eq_nil]
      dsimp only [List.length_singleton]
      omega

theorem load_deliver_lt (h : desk.Coherent) (hmailbox : desk.traffic.mailbox ≠ []) :
    desk.deliver.load + 1 ≤ desk.load := by
  obtain ⟨reply, rest, hmailbox⟩ := List.exists_cons_of_ne_nil hmailbox
  obtain ⟨actions, hactions, -⟩ := turn_deliver h.numbered h.writable hmailbox
  have hload := load_deliver h
  rw [hactions, applied_reply, List.length_cons] at hload
  omega

theorem orderly_deliver (h : desk.Orderly) : desk.deliver.Orderly :=
  h.moves (moves_deliver h.numbered h.writable : Moves True _ _ _)

theorem inFlight_eq_zero_of_load (hload : desk.load = 0) : desk.inFlight = 0 := by
  unfold load at hload
  omega

section Service

variable [FileService σ]

theorem load_release (desk : Desk σ) (position : Nat) :
    (desk.release position).2.load = desk.load := by
  rw [load_eq, load_eq, (desk.tickets_release position).length_eq, bar_release]

theorem load_releaseNext (desk : Desk σ) : desk.releaseNext.load = desk.load := by
  rw [load_eq, load_eq, desk.tickets_releaseNext.length_eq, bar_releaseNext]

theorem mailbox_releaseNext_ne_nil (h : desk.traffic.waiting ≠ []) :
    desk.releaseNext.traffic.mailbox ≠ [] := by
  have hlt : 0 < desk.traffic.waiting.length := List.length_pos_iff.mpr h
  have hrelease : ∀ (desk : Desk σ) (position : Nat), position < desk.traffic.waiting.length →
      (desk.release position).2.traffic.mailbox ≠ [] := by
    intro desk position hposition
    unfold release
    rw [List.getElem?_eq_getElem hposition]
    simp [Traffic.answered]
  unfold releaseNext
  split
  · exact hrelease desk 0 hlt
  next position rest _ =>
    apply hrelease
    dsimp only
    omega

theorem orderly_releaseNext (h : desk.Orderly) : desk.releaseNext.Orderly :=
  h.moves (desk.moves_releaseNext : Moves True _ _ _)

theorem orderly_awaitOne (h : desk.Orderly) : desk.awaitOne.Orderly := by
  unfold awaitOne
  split
  · exact orderly_deliver (orderly_releaseNext h)
  · exact orderly_deliver h

/-- As long as a request is under way, waiting for one result lightens the load. -/
theorem load_awaitOne (h : desk.Orderly) (hbusy : desk.inFlight ≠ 0) :
    desk.awaitOne.load + 1 ≤ desk.load := by
  unfold awaitOne
  split
  next hempty =>
    have hwaiting : desk.traffic.waiting ≠ [] := by
      intro hnone
      apply hbusy
      rw [inFlight, Traffic.inFlight, hnone, List.isEmpty_iff.mp hempty]
      rfl
    rw [← desk.load_releaseNext]
    exact load_deliver_lt (orderly_releaseNext h).toCoherent (mailbox_releaseNext_ne_nil hwaiting)
  next hready =>
    have hne : desk.traffic.mailbox ≠ [] := fun hnone => hready (by rw [hnone]; rfl)
    exact load_deliver_lt h.toCoherent hne

theorem settleWithin_of_idle (hidle : desk.inFlight = 0) (limit : Nat) :
    settleWithin limit desk = (0, desk) := by
  cases limit with
  | zero => rfl
  | succ limit => rw [settleWithin, if_pos hidle]

/-- A limit that is not below the load lets the wait end with nothing under way. -/
theorem settleWithin_spec (h : desk.Orderly) {limit : Nat} (hlimit : desk.load ≤ limit) :
    (settleWithin limit desk).2.Orderly ∧ (settleWithin limit desk).2.inFlight = 0 ∧
      (settleWithin limit desk).1 ≤ desk.load := by
  induction limit generalizing desk with
  | zero => exact ⟨h, inFlight_eq_zero_of_load (Nat.le_zero.mp hlimit), Nat.zero_le _⟩
  | succ limit ih =>
      unfold settleWithin
      split
      next hidle => exact ⟨h, hidle, Nat.zero_le _⟩
      next hbusy =>
        have hload := load_awaitOne h hbusy
        obtain ⟨horderly, hidle, hcount⟩ := ih (orderly_awaitOne h) (by omega)
        refine ⟨horderly, hidle, ?_⟩
        dsimp only
        omega

/-- Any two such limits give the same wait. -/
theorem settleWithin_congr (h : desk.Orderly) {limit other : Nat} (hlimit : desk.load ≤ limit)
    (hother : desk.load ≤ other) : settleWithin limit desk = settleWithin other desk := by
  induction limit generalizing desk other with
  | zero =>
      have hidle : desk.inFlight = 0 := inFlight_eq_zero_of_load (by omega)
      rw [settleWithin_of_idle hidle, settleWithin_of_idle hidle]
  | succ limit ih =>
      cases other with
      | zero =>
          have hidle : desk.inFlight = 0 := inFlight_eq_zero_of_load (by omega)
          rw [settleWithin_of_idle hidle, settleWithin_of_idle hidle]
      | succ other =>
          unfold settleWithin
          split
          · rfl
          next hbusy =>
            have hload := load_awaitOne h hbusy
            have hrest : settleWithin limit desk.awaitOne = settleWithin other desk.awaitOne :=
              ih (orderly_awaitOne h) (by omega) (by omega)
            rw [hrest]

theorem settle_spec (h : desk.Orderly) :
    desk.settle.2.Orderly ∧ desk.settle.2.inFlight = 0 ∧ desk.settle.1 ≤ desk.load :=
  settleWithin_spec h (Nat.le_refl _)

/-! ## Waiting for the saves below a path -/

/-- A tab at or below a path is being saved. -/
def SavingUnder (desk : Desk σ) (path : String) : Prop :=
  ∃ tab ∈ desk.bar.tabs, tab.pendingSave.isSome = true ∧ Path.isUnder tab.path path = true

/-- The desk waits for all requests if a tab there is being saved, and for none
otherwise. -/
theorem settleSavesUnder_cases (h : desk.Orderly) (path : String) :
    (desk.SavingUnder (Path.normalize path) ∧ (desk.settleSavesUnder path).2.Orderly ∧
        (desk.settleSavesUnder path).2.inFlight = 0) ∨
      (¬ desk.SavingUnder (Path.normalize path) ∧ desk.settleSavesUnder path = (0, desk)) := by
  have hsaving : (desk.bar.tabs.any fun tab =>
      tab.pendingSave.isSome && Path.isUnder tab.path (Path.normalize path)) = true ↔
        desk.SavingUnder (Path.normalize path) := by
    simp [SavingUnder]
  unfold settleSavesUnder
  dsimp only
  split
  next hany =>
    have hnoted : (desk.logInfo "save.awaited" (Path.normalize path)).Orderly :=
      h.moves (.of_unchanged ((Performs.refl desk).logInfo _ _) : Moves True _ _ _)
    obtain ⟨horderly, hidle, -⟩ := settle_spec hnoted
    exact .inl ⟨hsaving.mp hany, horderly, hidle⟩
  next hnone => exact .inr ⟨fun h => hnone (hsaving.mpr h), rfl⟩

/-- After the wait no tab there is being saved. -/
theorem not_savingUnder_settleSavesUnder (h : desk.Orderly) (path : String) :
    ¬ (desk.settleSavesUnder path).2.SavingUnder (Path.normalize path) := by
  rcases settleSavesUnder_cases h path with ⟨-, horderly, hidle⟩ | ⟨hnone, hsame⟩
  · rintro ⟨tab, htab, hpending, -⟩
    have hnone := Tab.isBusy_eq_false_iff.mp (horderly.quiet hidle tab htab).1 .save
    change tab.pendingSave = none at hnone
    rw [hnone] at hpending
    cases hpending
  · rw [hsame]
    exact hnone

end Service

end Desk

end Workbench
