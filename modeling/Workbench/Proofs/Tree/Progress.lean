import Mathlib.Data.List.Chain
import Workbench.File.Error
import Workbench.Tree.Upload

/-! # The progress of an upload

Progress is reported when an item is begun and when it was stored or refused. Whatever the
answers are, counts and bytes only grow from one report to the next, and with them the
percentage, be it the share of the bytes or, without any bytes, that of the files. After the
last item every file and every byte has been counted once. -/

namespace Workbench

namespace UploadItem

theorem totalSize_append (first second : List UploadItem) :
    totalSize (first ++ second) = totalSize first + totalSize second := by
  induction first with
  | nil => rw [List.nil_append, totalSize, Nat.zero_add]
  | cons item rest ih => rw [List.cons_append, totalSize, totalSize, ih, Nat.add_assoc]

end UploadItem

/-- An item with the answer to its upload. -/
structure AnsweredItem where
  item : UploadItem
  answer : Except FileError WriteResult

namespace AnsweredItem

/-- The item was not stored. -/
def refused (answered : AnsweredItem) : Bool := !answered.answer.isOk

end AnsweredItem

namespace UploadProgress

variable {p q r : UploadProgress}

/-! ## From one report to the next -/

/-- The progress is that of the same upload at a later time, or at the same. -/
structure Advances (p q : UploadProgress) : Prop where
  totalFiles : q.totalFiles = p.totalFiles
  totalBytes : q.totalBytes = p.totalBytes
  files : p.processedFiles ≤ q.processedFiles
  bytes : p.completedBytes ≤ q.completedBytes

theorem Advances.trans (h : p.Advances q) (h' : q.Advances r) : p.Advances r where
  totalFiles := h'.totalFiles.trans h.totalFiles
  totalBytes := h'.totalBytes.trans h.totalBytes
  files := h.files.trans h'.files
  bytes := h.bytes.trans h'.bytes

instance : IsTrans UploadProgress Advances := ⟨fun _ _ _ => Advances.trans⟩

theorem advances_startFile (p : UploadProgress) (path : String) :
    p.Advances (p.startFile path) :=
  ⟨rfl, rfl, Nat.le_refl _, Nat.le_refl _⟩

theorem advances_fileDone (p : UploadProgress) (size : Nat) : p.Advances (p.fileDone size) where
  totalFiles := rfl
  totalBytes := rfl
  files := by
    simp only [processedFiles, fileDone]
    omega
  bytes := Nat.le_add_right _ _

theorem advances_fileFailed (p : UploadProgress) (path : String) (size : Nat) :
    p.Advances (p.fileFailed path size) where
  totalFiles := rfl
  totalBytes := rfl
  files := by
    simp only [processedFiles, fileFailed]
    omega
  bytes := Nat.le_add_right _ _

/-- The percentage never falls, whichever way it is computed. -/
theorem Advances.percent_le (h : p.Advances q) : p.percent ≤ q.percent := by
  by_cases hbytes : p.totalBytes = 0
  · have hbytes' : q.totalBytes = 0 := h.totalBytes.trans hbytes
    by_cases hfinished : (q.totalFiles = 0 || q.isFinished) = true
    · have hwhole : q.percent = 100 := by rw [percent, if_pos hbytes', if_pos hfinished]
      exact hwhole ▸ p.percent_le
    · -- What is not finished later was not finished before.
      have hopen : ¬ (p.totalFiles = 0 || p.isFinished) = true := by
        have hfiles := h.files
        simp only [isFinished, h.totalFiles, Bool.or_eq_true, decide_eq_true_eq] at hfinished ⊢
        omega
      rw [percent, percent, if_pos hbytes, if_pos hbytes', if_neg hfinished, if_neg hopen,
        h.totalFiles]
      exact Nat.div_le_div_right (Nat.mul_le_mul_right 100 h.files)
  · have hbytes' : ¬ q.totalBytes = 0 := h.totalBytes ▸ hbytes
    rw [percent, percent, if_neg hbytes, if_neg hbytes', h.totalBytes]
    have hmin : min p.completedBytes p.totalBytes ≤ min q.completedBytes p.totalBytes := by
      have hgrows := h.bytes
      omega
    exact Nat.div_le_div_right (Nat.mul_le_mul_right 100 hmin)

/-- Once every file and every byte was counted, the percentage is the whole. -/
theorem percent_of_complete (hfiles : p.totalFiles ≤ p.processedFiles)
    (hbytes : p.totalBytes ≤ p.completedBytes) : p.percent = 100 := by
  unfold percent
  split
  · have hfinished : p.isFinished = true := decide_eq_true hfiles
    rw [hfinished, Bool.or_true, if_pos rfl]
  next hsome =>
    rw [Nat.min_eq_right hbytes]
    exact Nat.mul_div_cancel_left 100 (Nat.pos_of_ne_zero hsome)

/-! ## All items -/

/-- The progress once an item was stored or refused. -/
def settled (p : UploadProgress) (answered : AnsweredItem) : UploadProgress :=
  let begun := p.startFile answered.item.path
  if answered.refused then begun.fileFailed answered.item.path answered.item.size
  else begun.fileDone answered.item.size

/-- Everything that is reported of some items, each of them begun and then settled. -/
def reports (p : UploadProgress) : List AnsweredItem → List UploadProgress
  | [] => []
  | answered :: rest =>
      p.startFile answered.item.path :: p.settled answered ::
        (p.settled answered).reports rest

theorem length_reports (p : UploadProgress) (answers : List AnsweredItem) :
    (p.reports answers).length = 2 * answers.length := by
  induction answers generalizing p with
  | nil => rfl
  | cons answered rest ih =>
      rw [reports, List.length_cons, List.length_cons, ih, List.length_cons]
      omega

theorem advances_settled (p : UploadProgress) (answered : AnsweredItem) :
    (p.startFile answered.item.path).Advances (p.settled answered) := by
  unfold settled
  dsimp only
  split
  · exact advances_fileFailed _ _ _
  · exact advances_fileDone _ _

/-- Every report advances on the one before it. -/
theorem isChain_reports (p : UploadProgress) (answers : List AnsweredItem) :
    (p :: p.reports answers).IsChain Advances := by
  induction answers generalizing p with
  | nil => exact List.isChain_singleton p
  | cons answered rest ih =>
      rw [reports]
      exact .cons_cons (p.advances_startFile _)
        (.cons_cons (p.advances_settled answered) (ih (p.settled answered)))

/-- The last report is of the progress after all items. -/
theorem getLast?_reports (p : UploadProgress) (answers : List AnsweredItem) :
    (p :: p.reports answers).getLast? = some (answers.foldl settled p) := by
  induction answers generalizing p with
  | nil => rfl
  | cons answered rest ih =>
      rw [reports, List.getLast?_cons_cons, List.getLast?_cons_cons, ih, List.foldl_cons]

/-- Some items were counted, each of them once. -/
structure Counts (p : UploadProgress) (answers : List AnsweredItem) (q : UploadProgress) :
    Prop where
  totalFiles : q.totalFiles = p.totalFiles
  totalBytes : q.totalBytes = p.totalBytes
  files : q.processedFiles = p.processedFiles + answers.length
  failed : q.failedFiles = p.failedFiles + (answers.filter (·.refused)).length
  bytes : q.completedBytes = p.completedBytes + UploadItem.totalSize (answers.map (·.item))
  paths : q.failedPaths = p.failedPaths ++ (answers.filter (·.refused)).map (·.item.path)
  idle : p.current = none → q.current = none

theorem counts_settled (p : UploadProgress) (answered : AnsweredItem) :
    p.Counts [answered] (p.settled answered) := by
  unfold settled
  cases hrefused : answered.refused with
  | true =>
      constructor <;>
        simp [startFile, fileFailed, processedFiles, hrefused, UploadItem.totalSize]
      omega
  | false =>
      constructor <;>
        simp [startFile, fileDone, processedFiles, hrefused, UploadItem.totalSize]
      omega

theorem Counts.append {first second : List AnsweredItem} (h : p.Counts first q)
    (h' : q.Counts second r) : p.Counts (first ++ second) r where
  totalFiles := h'.totalFiles.trans h.totalFiles
  totalBytes := h'.totalBytes.trans h.totalBytes
  files := by rw [h'.files, h.files, List.length_append, Nat.add_assoc]
  failed := by
    rw [h'.failed, h.failed, List.filter_append, List.length_append, Nat.add_assoc]
  bytes := by
    rw [h'.bytes, h.bytes, List.map_append, UploadItem.totalSize_append, Nat.add_assoc]
  paths := by
    rw [h'.paths, h.paths, List.filter_append, List.map_append, List.append_assoc]
  idle hidle := h'.idle (h.idle hidle)

theorem counts_foldl_settled (p : UploadProgress) (answers : List AnsweredItem) :
    p.Counts answers (answers.foldl settled p) := by
  induction answers generalizing p with
  | nil => constructor <;> simp [UploadItem.totalSize]
  | cons answered rest ih => exact (p.counts_settled answered).append (ih (p.settled answered))

end UploadProgress

end Workbench
