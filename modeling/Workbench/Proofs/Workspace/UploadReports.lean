import Workbench.Proofs.Tree.Progress
import Workbench.Proofs.Workspace.Uploads
import Workbench.Word

/-! # What is reported of an upload

An upload reports its progress once at the beginning and twice for every item. The reports
depend on the items and on what the service answers to them, not on the tree or the tabs. So
whatever is refused, the percentage rises to a hundred and never falls, and in the end every
item has been counted as stored or as refused. -/

namespace Workbench.Workspace

variable {σ : Type} [FileService σ]

/-- What a service answers when it is given an item to store. -/
def answered (service : σ) (item : UploadItem) : AnsweredItem :=
  { item, answer := (FileService.storeFile item.path item.content item.encoding none service).1 }

/-- What a service answers when it is given items to store, one after another. -/
def answers (service : σ) : List UploadItem → List AnsweredItem
  | [] => []
  | item :: rest => answered service item :: answers (serviceAfter service [item]) rest

/-- The items that a service refuses to store, in their order. -/
def refusedItems (service : σ) (items : List UploadItem) : List UploadItem :=
  ((answers service items).filter (·.refused)).map (·.item)

theorem map_item_answers (service : σ) (items : List UploadItem) :
    (answers service items).map (·.item) = items := by
  induction items generalizing service with
  | nil => rfl
  | cons item rest ih => rw [answers, List.map_cons, ih, answered]

theorem length_answers (service : σ) (items : List UploadItem) :
    (answers service items).length = items.length := by
  rw [← List.length_map (f := (·.item)), map_item_answers]

/-! ## The reports of an upload -/

/-- An item was begun and then settled by what the service answered, and both were
reported. -/
structure Reports (before : UploadState σ) (item : UploadItem) (after : UploadState σ) : Prop where
  progress : after.progress =
    before.progress.settled (answered before.workspace.desk.service item)
  reported : after.reported =
    before.reported ++ [before.progress.startFile item.path, after.progress]
  service : after.workspace.desk.service = serviceAfter before.workspace.desk.service [item]

theorem reports_uploadItem (u : UploadState σ) (id : MutationId) (item : UploadItem) :
    Reports u item (uploadItem u (id, item)) := by
  unfold uploadItem UploadState.report Desk.storeFile
  dsimp only
  cases hstore : FileService.storeFile item.path item.content item.encoding none
      u.workspace.desk.service with
  | mk answer service =>
      have hanswered : answered u.workspace.desk.service item = { item, answer } := by
        rw [answered, hstore]
      cases answer with
      | ok write =>
          constructor
          case progress =>
            rw [hanswered]
            rfl
          case reported => simp
          case service => simp [serviceAfter, hstore, Desk.service_applyExternalWrite]
      | error error =>
          constructor
          case progress =>
            rw [hanswered]
            rfl
          case reported => simp
          case service => simp [serviceAfter, hstore]

/-- The items of an upload are reported one after another. -/
theorem reported_foldl_uploadItem (begun : List (MutationId × UploadItem)) (u : UploadState σ) :
    (begun.foldl uploadItem u).progress =
        (answers u.workspace.desk.service (begun.map (·.2))).foldl UploadProgress.settled
          u.progress ∧
      (begun.foldl uploadItem u).reported =
        u.reported ++ u.progress.reports (answers u.workspace.desk.service (begun.map (·.2))) := by
  induction begun generalizing u with
  | nil => exact ⟨rfl, (List.append_nil _).symm⟩
  | cons first rest ih =>
      obtain ⟨id, item⟩ := first
      have hstep := reports_uploadItem u id item
      obtain ⟨hprogress, hreported⟩ := ih (uploadItem u (id, item))
      rw [hstep.service, hstep.progress] at hprogress hreported
      rw [List.foldl_cons, List.map_cons, answers, List.foldl_cons]
      refine ⟨hprogress, ?_⟩
      rw [hreported, hstep.reported, hstep.progress, List.append_assoc]
      rfl

theorem reported_upload (w : Workspace σ) (items : List UploadItem) :
    (w.upload items).progress =
        (answers w.desk.service items).foldl UploadProgress.settled (.start items) ∧
      (w.upload items).reported =
        .start items ::
          (UploadProgress.start items).reports (answers w.desk.service items) := by
  have hitems := reported_foldl_uploadItem (beginUploads w.tree items).1
    { workspace := { w with tree := (beginUploads w.tree items).2 }
      progress := .start items
      reported := [.start items] }
  rw [map_snd_beginUploads] at hitems
  exact hitems

/-! ## Every item is counted, and the percentage only rises -/

/-- What is reported of an upload of some items of which some are refused, up to the progress
that it ends with. -/
structure Completes (items refused : List UploadItem) (reported : List UploadProgress)
    (final : UploadProgress) : Prop where
  count : reported.length = 1 + 2 * items.length
  first : reported.head? = some (.start items)
  last : reported.getLast? = some final
  bounded : ∀ p ∈ reported, p.percent ≤ 100
  ascending : (reported.map (·.percent)).Pairwise (· ≤ ·)
  whole : final.percent = 100
  files : final.completedFiles + final.failedFiles = items.length
  failed : final.failedFiles = refused.length
  bytes : final.completedBytes = UploadItem.totalSize items
  idle : final.current = none
  failedPaths : final.failedPaths = refused.map (·.path)
  /-- No product that a percentage is computed from wraps around. -/
  inWords : ∀ p ∈ reported, Word.fits (100 * p.completedBytes) = true ∧
    Word.fits (100 * p.totalBytes) = true

/-- Of a chain of reports, all advance to the last. -/
theorem advances_getLast {reported : List UploadProgress} {p final : UploadProgress}
    (hchain : reported.IsChain UploadProgress.Advances) (hlast : reported.getLast? = some final)
    (hp : p ∈ reported) : p = final ∨ p.Advances final := by
  obtain ⟨earlier, rfl⟩ := List.getLast?_eq_some_iff.1 hlast
  rcases List.mem_append.1 hp with hearlier | hfinal
  · have hpairs := List.pairwise_append.1 hchain.pairwise
    exact .inr (hpairs.2.2 p hearlier final (List.mem_singleton_self final))
  · exact .inl (List.mem_singleton.1 hfinal)

/-- Whatever the service answers, an upload reports twice for every item, its percentage
rises to a hundred, and it ends with every item counted as stored or as refused. -/
theorem upload_completes (w : Workspace σ) (items : List UploadItem)
    (hfits : Word.fits (100 * UploadItem.totalSize items) = true) :
    Completes items (refusedItems w.desk.service items) (w.upload items).reported
      (w.upload items).progress := by
  obtain ⟨hprogress, hreported⟩ := reported_upload w items
  have hcounts := UploadProgress.counts_foldl_settled (.start items)
    (answers w.desk.service items)
  have hchain := UploadProgress.isChain_reports (.start items) (answers w.desk.service items)
  have hlast := UploadProgress.getLast?_reports (.start items) (answers w.desk.service items)
  rw [← hprogress] at hcounts hlast
  rw [← hreported] at hchain hlast
  have hfiles : (w.upload items).progress.processedFiles = items.length := by
    rw [hcounts.files, length_answers]
    exact Nat.zero_add _
  have hbytes : (w.upload items).progress.completedBytes = UploadItem.totalSize items := by
    rw [hcounts.bytes, map_item_answers]
    exact Nat.zero_add _
  constructor
  case count =>
    rw [hreported, List.length_cons, UploadProgress.length_reports, length_answers, Nat.add_comm]
  case first => rw [hreported, List.head?_cons]
  case last => exact hlast
  case bounded => exact fun p _ => p.percent_le
  case ascending =>
    exact List.pairwise_map.2 (hchain.pairwise.imp UploadProgress.Advances.percent_le)
  case whole =>
    exact UploadProgress.percent_of_complete
      (Nat.le_of_eq (hcounts.totalFiles.trans hfiles.symm))
      (Nat.le_of_eq (hcounts.totalBytes.trans hbytes.symm))
  case files => exact hfiles
  case failed =>
    rw [hcounts.failed, refusedItems, List.length_map]
    exact Nat.zero_add _
  case bytes => exact hbytes
  case idle => exact hcounts.idle rfl
  case failedPaths =>
    rw [hcounts.paths, refusedItems, List.map_map]
    exact List.nil_append _
  case inWords =>
    intro p hp
    -- No report has more bytes than the last, and that has those of the items.
    have hbounds : p.completedBytes ≤ UploadItem.totalSize items ∧
        p.totalBytes = UploadItem.totalSize items := by
      rcases advances_getLast hchain hlast hp with rfl | hlater
      · exact ⟨Nat.le_of_eq hbytes, hcounts.totalBytes⟩
      · exact ⟨hbytes ▸ hlater.bytes, hlater.totalBytes.symm.trans hcounts.totalBytes⟩
    rw [Word.fits_iff] at hfits ⊢
    rw [Word.fits_iff]
    omega

/-- An item of which the first upload is refused, the same path again without any content,
and another item. -/
def repeatedItems : List UploadItem :=
  [.ofText "/plan" "one", .ofText "/plan" "", .ofText "/notes" "three"]

/-- The steps after which the service refuses the next write to one path. -/
def refusingOnce : List (Step MemoryFiles) :=
  [.outside (.plan ⟨.write, "/plan", .transport "reset"⟩)]

theorem repeatedItems_complete :
    Word.fits (100 * UploadItem.totalSize repeatedItems) = true ∧
      refusedItems (openingMemory.run refusingOnce).desk.service repeatedItems =
        [.ofText "/plan" "one"] ∧
      ((openingMemory.run refusingOnce).upload repeatedItems).reported.map (·.percent) =
        [0, 0, 37, 37, 37, 37, 100] ∧
      Completes repeatedItems
        (refusedItems (openingMemory.run refusingOnce).desk.service repeatedItems)
        ((openingMemory.run refusingOnce).upload repeatedItems).reported
        ((openingMemory.run refusingOnce).upload repeatedItems).progress := by
  have hfits : Word.fits (100 * UploadItem.totalSize repeatedItems) = true := by decide +kernel
  exact ⟨hfits, by decide +kernel, by decide +kernel, upload_completes _ _ hfits⟩

/-- Without any bytes, the percentage counts the files. -/
example : ((openingMemory.upload [.ofText "/a" "", .ofText "/b" ""]).reported.map (·.percent)) =
    [0, 0, 50, 50, 100] := by
  decide +kernel

end Workbench.Workspace
