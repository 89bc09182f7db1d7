import StagedTransfer.Wire.Job

/-!
# Requests and answers

What the gateway is asked for and what it answers, job reports apart.
-/

namespace StagedTransfer.Wire

open Json (Message)

/-! ### Requests -/

/-- Asks for the places to which the parts of a file go. -/
structure UploadPlanRequest where
  /-- The remote directory of the file. -/
  path     : String
  fileName : String
  account  : Option String
  fileSize : UInt64
  deriving DecidableEq, Inhabited

instance : Message UploadPlanRequest where
  shape := .record "UploadPlanRequest" <|
    .cons "path" .required (Message.shape String) <|
    .cons "fileName" .required (Message.shape String) <|
    .cons "account" .optional (Message.shape (Option String)) <|
    .cons "fileSize" .required (Message.shape UInt64) .nil
  carry a :=
    (Message.carry a.path, Message.carry a.fileName, Message.carry a.account,
      Message.carry a.fileSize, ())
  ofCarried c :=
    ⟨Message.ofCarried c.1, Message.ofCarried c.2.1, Message.ofCarried c.2.2.1,
      Message.ofCarried c.2.2.2.1⟩
  ofCarried_carry _ := by simp only [Message.ofCarried_carry]
  carry_ofCarried _ := by simp only [Message.carry_ofCarried]; rfl

/-- Asks for a remote file to be staged. -/
structure DownloadPlanRequest where
  sourcePath : String
  account    : Option String
  deriving DecidableEq, Inhabited

instance : Message DownloadPlanRequest where
  shape := .record "DownloadPlanRequest" <|
    .cons "sourcePath" .required (Message.shape String) <|
    .cons "account" .optional (Message.shape (Option String)) .nil
  carry a :=
    (Message.carry a.sourcePath, Message.carry a.account, ())
  ofCarried c :=
    ⟨Message.ofCarried c.1, Message.ofCarried c.2.1⟩
  ofCarried_carry _ := by simp only [Message.ofCarried_carry]
  carry_ofCarried _ := by simp only [Message.carry_ofCarried]; rfl

/-- Asks for a file to be copied, moved or extracted. -/
structure TargetPathRequest where
  sourcePath : String
  targetPath : String
  account    : Option String
  deriving DecidableEq, Inhabited

instance : Message TargetPathRequest where
  shape := .record "TargetPathRequest" <|
    .cons "sourcePath" .required (Message.shape String) <|
    .cons "targetPath" .required (Message.shape String) <|
    .cons "account" .optional (Message.shape (Option String)) .nil
  carry a :=
    (Message.carry a.sourcePath, Message.carry a.targetPath, Message.carry a.account, ())
  ofCarried c :=
    ⟨Message.ofCarried c.1, Message.ofCarried c.2.1, Message.ofCarried c.2.2.1⟩
  ofCarried_carry _ := by simp only [Message.ofCarried_carry]
  carry_ofCarried _ := by simp only [Message.carry_ofCarried]; rfl

/-- Asks for a directory to be packed. -/
structure CompressRequest where
  sourcePath  : String
  targetPath  : String
  account     : Option String
  pattern     : Option String
  dereference : Bool
  deriving DecidableEq, Inhabited

instance : Message CompressRequest where
  shape := .record "CompressRequest" <|
    .cons "sourcePath" .required (Message.shape String) <|
    .cons "targetPath" .required (Message.shape String) <|
    .cons "account" .optional (Message.shape (Option String)) <|
    .cons "pattern" .optional (Message.shape (Option String)) <|
    .cons "dereference" .defaulted (Message.shape Bool) .nil
  carry a :=
    (Message.carry a.sourcePath, Message.carry a.targetPath, Message.carry a.account,
      Message.carry a.pattern, Message.carry a.dereference, ())
  ofCarried c :=
    ⟨Message.ofCarried c.1, Message.ofCarried c.2.1, Message.ofCarried c.2.2.1,
      Message.ofCarried c.2.2.2.1, Message.ofCarried c.2.2.2.2.1⟩
  ofCarried_carry _ := by simp only [Message.ofCarried_carry]
  carry_ofCarried _ := by simp only [Message.carry_ofCarried]; rfl

/-! ### Answers -/

/-- The places to which the parts of a file go, in part order, each to be used once. -/
structure UploadPlan where
  partsUploadUrls   : List String
  completeUploadUrl : String
  maxPartSize       : UInt64
  transferJob       : TransferJob
  deriving DecidableEq, Inhabited

instance : Message UploadPlan where
  shape := .record "MultipartUploadPlan" <|
    .cons "partsUploadUrls" .required (Message.shape (List String)) <|
    .cons "completeUploadUrl" .required (Message.shape String) <|
    .cons "maxPartSize" .required (Message.shape UInt64) <|
    .cons "transferJob" .required (Message.shape TransferJob) .nil
  carry a :=
    (Message.carry a.partsUploadUrls, Message.carry a.completeUploadUrl,
      Message.carry a.maxPartSize, Message.carry a.transferJob, ())
  ofCarried c :=
    ⟨Message.ofCarried c.1, Message.ofCarried c.2.1, Message.ofCarried c.2.2.1,
      Message.ofCarried c.2.2.2.1⟩
  ofCarried_carry _ := by simp only [Message.ofCarried_carry]
  carry_ofCarried _ := by simp only [Message.carry_ofCarried]; rfl

/-- The place from which a file can be fetched once its job has completed. -/
structure DownloadPlan where
  downloadUrl : String
  transferJob : TransferJob
  deriving DecidableEq, Inhabited

instance : Message DownloadPlan where
  shape := .record "DownloadPlan" <|
    .cons "downloadUrl" .required (Message.shape String) <|
    .cons "transferJob" .required (Message.shape TransferJob) .nil
  carry a :=
    (Message.carry a.downloadUrl, Message.carry a.transferJob, ())
  ofCarried c :=
    ⟨Message.ofCarried c.1, Message.ofCarried c.2.1⟩
  ofCarried_carry _ := by simp only [Message.ofCarried_carry]
  carry_ofCarried _ := by simp only [Message.carry_ofCarried]; rfl

structure TransferJobResponse where
  transferJob : TransferJob
  deriving DecidableEq, Inhabited

instance : Message TransferJobResponse where
  shape := .record "TransferJobResponse" <|
    .cons "transferJob" .required (Message.shape TransferJob) .nil
  carry a :=
    (Message.carry a.transferJob, ())
  ofCarried c :=
    ⟨Message.ofCarried c.1⟩
  ofCarried_carry _ := by simp only [Message.ofCarried_carry]
  carry_ofCarried _ := by simp only [Message.carry_ofCarried]; rfl

/-- The jobs of a number; none while the scheduler does not know it. -/
structure JobsResponse where
  jobs : List SchedulerJob
  deriving DecidableEq, Inhabited

instance : Message JobsResponse where
  shape := .record "JobsResponse" <|
    .cons "jobs" .defaulted (Message.shape (List SchedulerJob)) .nil
  carry a :=
    (Message.carry a.jobs, ())
  ofCarried c :=
    ⟨Message.ofCarried c.1⟩
  ofCarried_carry _ := by simp only [Message.ofCarried_carry]
  carry_ofCarried _ := by simp only [Message.carry_ofCarried]; rfl

structure FileStat where
  mode  : UInt32
  ino   : UInt64
  dev   : UInt64
  nlink : UInt64
  uid   : UInt32
  gid   : UInt32
  size  : UInt64
  atime : Int64
  ctime : Int64
  mtime : Int64
  deriving DecidableEq, Inhabited

instance : Message FileStat where
  shape := .record "FileStat" <|
    .cons "mode" .defaulted (Message.shape UInt32) <|
    .cons "ino" .defaulted (Message.shape UInt64) <|
    .cons "dev" .defaulted (Message.shape UInt64) <|
    .cons "nlink" .defaulted (Message.shape UInt64) <|
    .cons "uid" .defaulted (Message.shape UInt32) <|
    .cons "gid" .defaulted (Message.shape UInt32) <|
    .cons "size" .defaulted (Message.shape UInt64) <|
    .cons "atime" .defaulted (Message.shape Int64) <|
    .cons "ctime" .defaulted (Message.shape Int64) <|
    .cons "mtime" .defaulted (Message.shape Int64) .nil
  carry a :=
    (Message.carry a.mode, Message.carry a.ino, Message.carry a.dev, Message.carry a.nlink,
      Message.carry a.uid, Message.carry a.gid, Message.carry a.size, Message.carry a.atime,
      Message.carry a.ctime, Message.carry a.mtime, ())
  ofCarried c :=
    ⟨Message.ofCarried c.1, Message.ofCarried c.2.1, Message.ofCarried c.2.2.1,
      Message.ofCarried c.2.2.2.1, Message.ofCarried c.2.2.2.2.1, Message.ofCarried c.2.2.2.2.2.1,
      Message.ofCarried c.2.2.2.2.2.2.1, Message.ofCarried c.2.2.2.2.2.2.2.1,
      Message.ofCarried c.2.2.2.2.2.2.2.2.1, Message.ofCarried c.2.2.2.2.2.2.2.2.2.1⟩
  ofCarried_carry _ := by simp only [Message.ofCarried_carry]
  carry_ofCarried _ := by simp only [Message.carry_ofCarried]; rfl

structure FileStatResponse where
  output : Option FileStat
  deriving DecidableEq, Inhabited

instance : Message FileStatResponse where
  shape := .record "FileStatResponse" <|
    .cons "output" .defaulted (Message.shape (Option FileStat)) .nil
  carry a :=
    (Message.carry a.output, ())
  ofCarried c :=
    ⟨Message.ofCarried c.1⟩
  ofCarried_carry _ := by simp only [Message.ofCarried_carry]
  carry_ofCarried _ := by simp only [Message.carry_ofCarried]; rfl

end StagedTransfer.Wire
