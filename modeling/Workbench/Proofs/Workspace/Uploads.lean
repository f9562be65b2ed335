import Workbench.Proofs.Tree.Provisional
import Workbench.Proofs.Workspace.Actions

/-! # What uploads leave in the tree

An upload enters all its items into the tree before the service stores the first of them.
Two items with one path therefore overlap: the later one notes the provisional entry of
the earlier one, and gives it back if it is refused. An upload over a tree without open
changes leaves a provisional entry in exactly that case, besides those that were there
before and that it does not settle. -/

namespace Workbench

open FileTree

/-- An item that was entered into the tree: the number of its change, and the entry that
was at its path before. -/
structure EnteredItem where
  id : MutationId
  item : UploadItem
  former : Option TreeEntry

namespace EnteredItem

/-- The open change of an entered item. -/
def change (entered : EnteredItem) : PendingMutation :=
  { kind := .upload entered.item.path
    snapshot := [(entered.item.path, entered.former)]
    provisionalPaths := [entered.item.path] }

/-- The entry before was provisional. -/
def OverProvisional (entered : EnteredItem) : Prop := entered.former.any (·.provisional) = true

theorem touches_change (entered : EnteredItem) (key : String) :
    entered.change.Touches key ↔ entered.item.path = key := by
  by_cases h : entered.item.path = key <;>
    simp [PendingMutation.Touches, PendingMutation.noted?, change, h]

theorem notesProvisional_change (entered : EnteredItem) (key : String) :
    entered.change.NotesProvisional key ↔ entered.item.path = key ∧ entered.OverProvisional := by
  unfold PendingMutation.NotesProvisional OverProvisional
  by_cases h : entered.item.path = key
  · simp [PendingMutation.noted?, change, h, Option.any_eq_true]
  · simp [PendingMutation.noted?, change, h]

end EnteredItem

namespace FileTree

variable {tree : FileTree} {key : String}

/-- The items of an upload as they are entered one after another. -/
def entered (tree : FileTree) : List UploadItem → List EnteredItem
  | [] => []
  | item :: rest =>
      { id := tree.lastMutation + 1, item, former := tree.entries.get? item.path } ::
        (tree.beginUpload item.path item.size).2.entered rest

theorem map_item_entered (tree : FileTree) (items : List UploadItem) :
    (tree.entered items).map (·.item) = items := by
  induction items generalizing tree with
  | nil => rfl
  | cons item rest ih => simp [entered, ih]

theorem fst_beginUploads (tree : FileTree) (items : List UploadItem) :
    (Workspace.beginUploads tree items).1 = (tree.entered items).map fun e => (e.id, e.item) := by
  induction items generalizing tree with
  | nil => rfl
  | cons item rest ih =>
      simp only [Workspace.beginUploads, entered, List.map_cons, ← ih]
      rfl

theorem pending_beginUploads (tree : FileTree) (items : List UploadItem) :
    (Workspace.beginUploads tree items).2.pending =
      tree.pending ++ (tree.entered items).map fun e => (e.id, e.change) := by
  induction items generalizing tree with
  | nil => simp [Workspace.beginUploads, entered]
  | cons item rest ih =>
      simp only [Workspace.beginUploads, entered, List.map_cons, ih,
        (begins_beginUpload tree item.path item.size).pending_eq, List.append_assoc]
      rfl

theorem Sound.beginUploads (h : tree.Sound) (items : List UploadItem) :
    (Workspace.beginUploads tree items).2.Sound := by
  induction items generalizing tree with
  | nil => exact h
  | cons item rest ih => exact ih ((begins_beginUpload tree item.path item.size).sound h)

theorem showsProvisional_beginUpload (tree : FileTree) (path : String) (size : Nat) :
    (tree.beginUpload path size).2.ShowsProvisional key ↔
      tree.ShowsProvisional key ∨ path = key := by
  change ((tree.entries.insert path (.tentative path .file size)).get? key).any _ = true ↔ _
  rw [Keyed.get?_insert]
  by_cases heq : path = key
  · simp [heq, TreeEntry.tentative]
  · simp [heq, ShowsProvisional]

theorem showsProvisional_beginUploads (tree : FileTree) (items : List UploadItem) :
    (Workspace.beginUploads tree items).2.ShowsProvisional key ↔
      tree.ShowsProvisional key ∨ ∃ item ∈ items, item.path = key := by
  induction items generalizing tree with
  | nil => simp [Workspace.beginUploads]
  | cons item rest ih =>
      rw [Workspace.beginUploads, List.exists_mem_cons_iff, ← or_assoc,
        ← showsProvisional_beginUpload tree item.path item.size]
      exact ih _

/-- An item is entered over a provisional entry if there was one from the beginning, or an
earlier item has the same path. -/
theorem overProvisional_iff {items : List UploadItem} {earlier later : List EnteredItem}
    {e : EnteredItem} (h : tree.entered items = earlier ++ e :: later) :
    e.OverProvisional ↔
      tree.ShowsProvisional e.item.path ∨ ∃ other ∈ earlier, other.item.path = e.item.path := by
  induction items generalizing tree earlier with
  | nil => simp [entered] at h
  | cons item rest ih =>
      rw [entered] at h
      cases earlier with
      | nil =>
          obtain ⟨rfl, -⟩ := List.cons.inj h
          simp [EnteredItem.OverProvisional, ShowsProvisional]
      | cons first before =>
          obtain ⟨rfl, hrest⟩ := List.cons.inj h
          rw [ih hrest, showsProvisional_beginUpload, List.exists_mem_cons_iff, or_assoc]

end FileTree

namespace Workspace

variable {σ : Type} [FileService σ] {w : Workspace σ} {u : UploadState σ} {key : String}

/-- The service after it was given items to store. -/
def serviceAfter (service : σ) (items : List UploadItem) : σ :=
  items.foldl
    (fun service item =>
      (FileService.storeFile item.path item.content item.encoding none service).2) service

/-- The service refuses to store an item after others. -/
def Refuses (service : σ) (earlier : List UploadItem) (item : UploadItem) : Prop :=
  ∃ error, (FileService.storeFile item.path item.content item.encoding none
    (serviceAfter service earlier)).1 = .error error

/-! ## One item is settled -/

theorem confirmed_eq {tree : FileTree} {id : MutationId} {change : PendingMutation}
    (h : tree.Sound) (hopen : (id, change) ∈ tree.pending) (reported : List DirEntry) :
    confirmed tree id reported =
      tree.settled id (change.provisionalPaths.foldl (confirmEntry reported) tree.entries) := by
  rw [confirmed, h.confirm_eq hopen]
  rfl

theorem rolledBack_eq {tree : FileTree} {id : MutationId} {change : PendingMutation}
    (h : tree.Sound) (hopen : (id, change) ∈ tree.pending) :
    rolledBack tree id = tree.settled id (change.snapshot.foldr restoreEntry tree.entries) := by
  rw [rolledBack, h.rollback_eq hopen]
  rfl

/-- The oldest of the entered items is settled by what the service answers. Only its path
is concerned: nothing provisional is left there, unless it was refused and had been
entered over a provisional entry. -/
structure ItemSettled (before after : UploadState σ) (e : EnteredItem)
    (rest : List EnteredItem) : Prop where
  sound : after.workspace.tree.Sound
  pending : after.workspace.tree.pending = rest.map fun e => (e.id, e.change)
  service : after.workspace.desk.service = serviceAfter before.workspace.desk.service [e.item]
  elsewhere : ∀ key, e.item.path ≠ key →
    (after.workspace.tree.ShowsProvisional key ↔ before.workspace.tree.ShowsProvisional key)
  there : after.workspace.tree.ShowsProvisional e.item.path ↔
    Refuses before.workspace.desk.service [] e.item ∧ e.OverProvisional

theorem itemSettled_uploadItem {e : EnteredItem} {rest : List EnteredItem}
    (hsound : u.workspace.tree.Sound)
    (hpending : u.workspace.tree.pending = (e :: rest).map fun e => (e.id, e.change)) :
    ItemSettled u (uploadItem u (e.id, e.item)) e rest := by
  have hopen : (e.id, e.change) ∈ u.workspace.tree.pending := by simp [hpending]
  have hrest : ∀ entries, (u.workspace.tree.settled e.id entries).pending =
      rest.map fun e => (e.id, e.change) :=
    hsound.pending_settled (show _ = [] ++ (e.id, e.change) :: rest.map _ from hpending)
  unfold uploadItem UploadState.report Desk.storeFile
  dsimp only
  cases hstore : FileService.storeFile e.item.path e.item.content e.item.encoding none
      u.workspace.desk.service with
  | mk answer service =>
      cases answer with
      | ok write =>
          dsimp only
          rw [confirmed_eq hsound hopen]
          have hshown := showsProvisional_confirmed [write.toEntry] e.change.provisionalPaths
            u.workspace.tree.entries
          constructor
          case sound => exact hsound.settled _ _
          case pending => exact hrest _
          case service => simp [serviceAfter, hstore, Desk.service_applyExternalWrite]
          case elsewhere =>
            intro key hne
            refine (hshown key).trans (and_iff_left ?_)
            simpa [EnteredItem.change] using Ne.symm hne
          case there =>
            refine (hshown _).trans ?_
            simp [EnteredItem.change, Refuses, serviceAfter, hstore]
      | error error =>
          dsimp only
          rw [rolledBack_eq hsound hopen]
          have hshown := showsProvisional_restored u.workspace.tree e.id e.change
          constructor
          case sound => exact hsound.settled _ _
          case pending => exact hrest _
          case service => simp [serviceAfter, hstore]
          case elsewhere =>
            intro key hne
            refine (hshown key).trans ?_
            simp [e.notesProvisional_change, e.touches_change, hne]
          case there =>
            refine (hshown _).trans ?_
            simp [e.notesProvisional_change, e.touches_change, Refuses, serviceAfter, hstore]

/-! ## All items are settled -/

theorem serviceAfter_append (service : σ) (first second : List UploadItem) :
    serviceAfter service (first ++ second) = serviceAfter (serviceAfter service first) second :=
  List.foldl_append

/-- The last of the items with a path was refused, and it satisfies the condition. -/
def LastRefused (service : σ) (entered : List EnteredItem) (key : String) : Prop :=
  ∃ earlier e later, entered = earlier ++ e :: later ∧ e.item.path = key ∧
    (∀ other ∈ later, other.item.path ≠ key) ∧
    Refuses service (earlier.map (·.item)) e.item ∧ e.OverProvisional

theorem lastRefused_cons {service : σ} {e : EnteredItem} {rest : List EnteredItem} :
    LastRefused service (e :: rest) key ↔
      (e.item.path = key ∧ (∀ other ∈ rest, other.item.path ≠ key) ∧ Refuses service [] e.item ∧
          e.OverProvisional) ∨
        LastRefused (serviceAfter service [e.item]) rest key := by
  have hafter : ∀ earlier item, Refuses (serviceAfter service [e.item]) earlier item ↔
      Refuses service (e.item :: earlier) item := by
    intro earlier item
    rw [Refuses, Refuses, ← serviceAfter_append, List.singleton_append]
  constructor
  · rintro ⟨_ | ⟨first, earlier⟩, other, later, hsplit, hpath, hlater, hrefused, hover⟩
    · obtain ⟨rfl, rfl⟩ := List.cons.inj hsplit
      exact .inl ⟨hpath, hlater, hrefused, hover⟩
    · obtain ⟨rfl, hrest⟩ := List.cons.inj hsplit
      exact .inr ⟨earlier, other, later, hrest, hpath, hlater, (hafter _ _).mpr hrefused, hover⟩
  · rintro (⟨hpath, hlater, hrefused, hover⟩ |
      ⟨earlier, other, later, rfl, hpath, hlater, hrefused, hover⟩)
    · exact ⟨[], e, rest, rfl, hpath, hlater, hrefused, hover⟩
    · exact ⟨e :: earlier, other, later, rfl, hpath, hlater, (hafter _ _).mp hrefused, hover⟩

/-- Once all items are settled no change is open, and it was the last item with a path
that decided what is left there. -/
theorem settled_foldl_uploadItem {entered : List EnteredItem} (key : String)
    (hsound : u.workspace.tree.Sound)
    (hpending : u.workspace.tree.pending = entered.map fun e => (e.id, e.change)) :
    ((entered.map fun e => (e.id, e.item)).foldl uploadItem u).workspace.tree.pending = [] ∧
      (((entered.map fun e => (e.id, e.item)).foldl uploadItem u).workspace.tree.ShowsProvisional
          key ↔
        (u.workspace.tree.ShowsProvisional key ∧ ∀ e ∈ entered, e.item.path ≠ key) ∨
          LastRefused u.workspace.desk.service entered key) := by
  induction entered generalizing u with
  | nil => simp [hpending, LastRefused]
  | cons e rest ih =>
      have hstep := itemSettled_uploadItem hsound hpending
      obtain ⟨hnone, hshown⟩ := ih hstep.sound hstep.pending
      rw [List.map_cons, List.foldl_cons]
      refine ⟨hnone, hshown.trans ?_⟩
      rw [lastRefused_cons, hstep.service, List.forall_mem_cons]
      by_cases hpath : e.item.path = key
      · subst hpath
        rw [hstep.there]
        tauto
      · rw [hstep.elsewhere key hpath]
        tauto

/-- The last item with a path is refused, over an earlier one or over an entry that was
provisional before. -/
def LeavesBehind (w : Workspace σ) (items : List UploadItem) (key : String) : Prop :=
  ∃ earlier item later, items = earlier ++ item :: later ∧ item.path = key ∧
    (∀ other ∈ later, other.path ≠ key) ∧ Refuses w.desk.service earlier item ∧
    (w.tree.ShowsProvisional key ∨ ∃ other ∈ earlier, other.path = key)

theorem leavesBehind_iff {items : List UploadItem} :
    w.LeavesBehind items key ↔ LastRefused w.desk.service (w.tree.entered items) key := by
  constructor
  · rintro ⟨earlier, item, later, rfl, rfl, hlater, hrefused, hover⟩
    obtain ⟨first, others, hsplit, rfl, hothers⟩ :=
      List.map_eq_append_iff.mp (w.tree.map_item_entered (earlier ++ item :: later))
    obtain ⟨e, rest, rfl, rfl, rfl⟩ := List.map_eq_cons_iff.mp hothers
    refine ⟨first, e, rest, hsplit, rfl, by simpa using hlater, hrefused, ?_⟩
    exact (overProvisional_iff hsplit).mpr (by simpa using hover)
  · rintro ⟨first, e, rest, hsplit, rfl, hrest, hrefused, hover⟩
    refine ⟨first.map (·.item), e.item, rest.map (·.item), ?_, rfl, by simpa using hrest,
      hrefused, ?_⟩
    · rw [← w.tree.map_item_entered items, hsplit, List.map_append, List.map_cons]
    · simpa using (overProvisional_iff hsplit).mp hover

/-- After an upload over a tree without open changes there are none again, and what is
left provisional is left behind or was not concerned. -/
theorem settled_upload (hnone : w.tree.pending = []) (items : List UploadItem) :
    (w.upload items).workspace.tree.pending = [] ∧
      ((w.upload items).workspace.tree.ShowsProvisional key ↔
        (w.tree.ShowsProvisional key ∧ ∀ item ∈ items, item.path ≠ key) ∨
          w.LeavesBehind items key) := by
  have hsound : (beginUploads w.tree items).2.Sound := (sound_of_settled hnone).beginUploads items
  have hpending := pending_beginUploads w.tree items
  rw [hnone, List.nil_append] at hpending
  let begun : UploadState σ :=
    { workspace := { w with tree := (beginUploads w.tree items).2 }
      progress := .start items
      reported := [.start items] }
  have htree : (w.upload items).workspace.tree =
      (((w.tree.entered items).map fun e => (e.id, e.item)).foldl uploadItem begun).workspace.tree := by
    rw [← fst_beginUploads]
    rfl
  obtain ⟨hsettled, hshown⟩ := settled_foldl_uploadItem (u := begun) key hsound hpending
  rw [htree, leavesBehind_iff]
  refine ⟨hsettled, hshown.trans ?_⟩
  have hbegun : begun.workspace.tree.ShowsProvisional key ↔
      w.tree.ShowsProvisional key ∨ ∃ item ∈ items, item.path = key :=
    showsProvisional_beginUploads w.tree items
  have hpaths : (∀ e ∈ w.tree.entered items, e.item.path ≠ key) ↔
      ∀ item ∈ items, item.path ≠ key := by
    conv_rhs => rw [← w.tree.map_item_entered items, List.forall_mem_map]
  rw [hbegun, hpaths]
  refine or_congr_left (and_congr_left fun hapart => or_iff_left ?_)
  rintro ⟨item, hitem, hpath⟩
  exact hapart item hitem hpath

/-- Without open changes the provisional entries are those that a rollback has revived,
whatever was done; and those that an upload leaves are there because the last item with
their path was refused over another provisional entry. -/
theorem provisional_outlives_iff (history : List Deed) (hsettled : (empty.after history).pending = [])
    (w : Workspace σ) (hnone : w.tree.pending = []) (items : List UploadItem) (key : String) :
    ((empty.after history).ShowsProvisional key ↔ empty.RevivedIn history key) ∧
      (w.upload items).workspace.tree.pending = [] ∧
        ((w.upload items).workspace.tree.ShowsProvisional key ↔
          (w.tree.ShowsProvisional key ∧ ∀ item ∈ items, item.path ≠ key) ∨
            w.LeavesBehind items key) := by
  refine ⟨?_, settled_upload hnone items⟩
  rw [← stray_of_settled hsettled]
  exact stray_iff_revivedIn history key

/-- Two uploads to one path, of which the later is undone first. -/
def undoneInTurn : List Deed :=
  [.upload "/plan" 3, .upload "/plan" 5, .rollback 2, .confirm 1 []]

/-- The service is about to refuse two stores at one path. -/
def refusingTwice : List (Step MemoryFiles) :=
  [.outside (.plan ⟨.write, "/plan", .transport "reset"⟩),
   .outside (.plan ⟨.write, "/plan", .transport "reset"⟩)]

theorem undoneInTurn_outlives_iff :
    (empty.after undoneInTurn).pending = [] ∧ (openingMemory.run refusingTwice).tree.pending = [] ∧
      ((empty.after undoneInTurn).ShowsProvisional "/plan" ↔ empty.RevivedIn undoneInTurn "/plan") ∧
      ((openingMemory.run refusingTwice).upload [.ofText "/plan" "one"]).workspace.tree.pending = [] ∧
      (((openingMemory.run refusingTwice).upload
            [.ofText "/plan" "one"]).workspace.tree.ShowsProvisional "/plan" ↔
        ((openingMemory.run refusingTwice).tree.ShowsProvisional "/plan" ∧
            ∀ item ∈ [UploadItem.ofText "/plan" "one"], item.path ≠ "/plan") ∨
          (openingMemory.run refusingTwice).LeavesBehind [.ofText "/plan" "one"] "/plan") := by
  have hsettled : (empty.after undoneInTurn).pending = [] := by decide +kernel
  exact ⟨hsettled, rfl, provisional_outlives_iff undoneInTurn hsettled _ rfl _ _⟩

/-- The later of two uploads to one path is undone after the earlier is settled, or both
are refused by the service: an entry stays provisional although nothing is stored. -/
theorem refusedTwice_stays_provisional :
    ((empty.after [.upload "/plan" 3, .upload "/plan" 5, .confirm 1 [], .rollback 2]).pending = [] ∧
      (empty.after [.upload "/plan" 3, .upload "/plan" 5, .confirm 1 [],
        .rollback 2]).ShowsProvisional "/plan") ∧
    (openingMemory.run refusingTwice).tree.pending = [] ∧
      ((openingMemory.run refusingTwice).upload
        [.ofText "/plan" "one", .ofText "/plan" "two"]).workspace.tree.pending = [] ∧
      ((openingMemory.run refusingTwice).upload
        [.ofText "/plan" "one", .ofText "/plan" "two"]).workspace.tree.ShowsProvisional "/plan" ∧
      ((openingMemory.run refusingTwice).upload
        [.ofText "/plan" "one", .ofText "/plan" "two"]).workspace.desk.service.content? "/plan" =
          none := by
  decide +kernel

end Workspace

end Workbench
