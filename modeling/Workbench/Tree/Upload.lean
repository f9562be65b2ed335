import Workbench.File.Basic

/-! # Uploads

What is to be uploaded, and how far an upload of several files has come. A file
that failed counts as processed, so the share of processed bytes reaches the
whole in any case; without any bytes the files are counted instead. -/

namespace Workbench

structure UploadItem where
  path : String
  content : String
  encoding : Encoding
  deriving DecidableEq, Inhabited

namespace UploadItem

def ofText (path content : String) : UploadItem := { path, content, encoding := .utf8 }

/-- The size of a file to be uploaded, in bytes. -/
def size (item : UploadItem) : Nat := byteSize item.content

def totalSize : List UploadItem → Nat
  | [] => 0
  | item :: rest => item.size + totalSize rest

end UploadItem

/-- How far an upload has come. -/
structure UploadProgress where
  totalFiles : Nat
  completedFiles : Nat
  failedFiles : Nat
  totalBytes : Nat
  completedBytes : Nat
  current : Option String
  failedPaths : List String
  deriving DecidableEq, Inhabited

namespace UploadProgress

/-- Before the first file. -/
def start (items : List UploadItem) : UploadProgress :=
  { totalFiles := items.length
    completedFiles := 0
    failedFiles := 0
    totalBytes := UploadItem.totalSize items
    completedBytes := 0
    current := none
    failedPaths := [] }

def startFile (p : UploadProgress) (path : String) : UploadProgress :=
  { p with current := some path }

def fileDone (p : UploadProgress) (size : Nat) : UploadProgress :=
  { p with
    completedFiles := p.completedFiles + 1
    completedBytes := p.completedBytes + size
    current := none }

def fileFailed (p : UploadProgress) (path : String) (size : Nat) : UploadProgress :=
  { p with
    failedFiles := p.failedFiles + 1
    completedBytes := p.completedBytes + size
    current := none
    failedPaths := p.failedPaths ++ [path] }

/-- The number of files that were stored or refused. -/
def processedFiles (p : UploadProgress) : Nat := p.completedFiles + p.failedFiles

/-- Every file was stored or refused. -/
def isFinished (p : UploadProgress) : Bool := p.totalFiles ≤ p.processedFiles

/-- The processed share in whole percent, rounded down. -/
def percent (p : UploadProgress) : Nat :=
  if p.totalBytes = 0 then
    if p.totalFiles = 0 || p.isFinished then 100
    else p.processedFiles * 100 / p.totalFiles
  else min p.completedBytes p.totalBytes * 100 / p.totalBytes

theorem percent_le (p : UploadProgress) : p.percent ≤ 100 := by
  unfold percent
  split
  · split
    · exact Nat.le_refl 100
    next hopen =>
      simp only [isFinished, Bool.or_eq_true, decide_eq_true_eq, not_or, Nat.not_le] at hopen
      apply Nat.div_le_of_le_mul
      rw [Nat.mul_comm p.totalFiles]
      have := hopen.2
      omega
  next hbytes =>
    apply Nat.div_le_of_le_mul
    have := Nat.min_le_right p.completedBytes p.totalBytes
    omega

end UploadProgress

end Workbench
