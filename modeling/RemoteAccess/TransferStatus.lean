import Mathlib.Data.UInt
import RemoteAccess.Basics.Transitions
import RemoteAccess.FileChunks

/-! The client's file transfers: starting, pausing, resuming and cancelling, where slots of
the progress signals pause or cancel the transfer that is running, and what the status says
at its end. -/

namespace RemoteAccess.TransferStatus

open FileChunks FileTransfer

/-- What the transfers share. The progress and the speed are only shown. -/
structure Transfer where
  transferStatus : String := "Idle"
  isTransferPaused : Bool := false
  currentTransferBytes : UInt64 := 0
  totalTransferBytes : UInt64 := 0
deriving DecidableEq, Repr

namespace Transfer

def pauseFileTransfer (s : Transfer) : Transfer :=
  { s with isTransferPaused := true, transferStatus := "Transfer Paused (Offset Saved)" }

def resumeFileTransfer (s : Transfer) : Transfer :=
  { s with isTransferPaused := false, transferStatus := "Resuming Transfer..." }

def cancelFileTransfer (s : Transfer) : Transfer :=
  { s with isTransferPaused := true, currentTransferBytes := 0
           transferStatus := "Transfer Canceled" }

end Transfer

/-- A call from a slot of a progress signal. -/
inductive Interrupt where
  | pauseFileTransfer
  | cancelFileTransfer
deriving DecidableEq, Repr

def Transfer.interrupt (s : Transfer) : Interrupt → Transfer
  | .pauseFileTransfer => s.pauseFileTransfer
  | .cancelFileTransfer => s.cancelFileTransfer

/-- What arrives at the two signals of a round of the loop. -/
structure Round where
  atProgress : List Interrupt := []
  atSpeed : List Interrupt := []

/-- What arrives in a transfer: as the progress is set to zero, and in each round. -/
structure Signals where
  atStart : List Interrupt := []
  round : Nat → Round := fun _ => {}

/-- What a path leads to, and what `prepareFileChunks` makes of it. -/
structure Source where
  file : Option InputFile
  chunks : List FileChunk

/-- `QFileInfo(path).fileName()`. -/
def fileName (path : String) : String :=
  String.ofList (path.toList.reverse.takeWhile (· ≠ '/')).reverse

namespace Transfer

/-- The loop over the chunks from round `i` on, and how many rounds have been made then. -/
def process (round : Nat → Round) : (i : Nat) → List FileChunk → Transfer → Transfer × Nat
  | i, [], s => (s, i)
  | i, chunk :: chunks, s =>
    if s.isTransferPaused then (s, i)
    else
      let s := { s with currentTransferBytes :=
        s.currentTransferBytes + UInt64.ofNat chunk.data.length }
      let s := (round i).atProgress.foldl interrupt s
      let s := (round i).atSpeed.foldl interrupt s
      process round (i + 1) chunks s

def uploadCompleted : String := "Upload Completed (SHA-256 Verified)"

def downloadCompleted : String := "Download Completed (SHA-256 Verified)"

/-- The state after the call, and how many chunks were processed. -/
def startFileUpload (s : Transfer) (localPath : String) (source : Source) (signals : Signals) :
    Transfer × Nat :=
  if localPath = "" then (s, 0)
  else
    let s := { s with transferStatus := "Uploading " ++ fileName localPath ++ "..." }
    let s := signals.atStart.foldl interrupt s
    let s := { s with isTransferPaused := false }
    match source.chunks with
    | [] => ({ s with transferStatus := "Error: File empty or unreadable" }, 0)
    | front :: _ =>
      let s := { s with totalTransferBytes := UInt64.ofNat front.totalSize
                        currentTransferBytes := 0 }
      let (s, processed) := process signals.round 0 source.chunks s
      ({ s with transferStatus := uploadCompleted }, processed)

def startFileDownload (s : Transfer) (remotePath : String) (source : Source)
    (signals : Signals) : Transfer × Nat :=
  if remotePath = "" then (s, 0)
  else
    let s := { s with transferStatus := "Downloading " ++ fileName remotePath ++ "..." }
    let s := signals.atStart.foldl interrupt s
    let s := { s with
      totalTransferBytes := match source.chunks with
        | [] => 1024
        | front :: _ => UInt64.ofNat front.totalSize
      currentTransferBytes := 0 }
    let (s, processed) := process signals.round 0 source.chunks s
    ({ s with transferStatus := downloadCompleted }, processed)

end Transfer

inductive Call where
  | startFileUpload (localPath : String) (source : Source) (signals : Signals)
  | startFileDownload (remotePath : String) (source : Source) (signals : Signals)
  | pauseFileTransfer
  | resumeFileTransfer
  | cancelFileTransfer

def step (s : Transfer) : Call → Transfer
  | .startFileUpload localPath source signals => (s.startFileUpload localPath source signals).1
  | .startFileDownload remotePath source signals =>
    (s.startFileDownload remotePath source signals).1
  | .pauseFileTransfer => s.pauseFileTransfer
  | .resumeFileTransfer => s.resumeFileTransfer
  | .cancelFileTransfer => s.cancelFileTransfer

/-! ### The loop -/

def Round.arrivals (round : Round) : List Interrupt := round.atProgress ++ round.atSpeed

namespace Transfer

theorem interrupts_paused (arrivals : List Interrupt) (s : Transfer) :
    (arrivals.foldl interrupt s).isTransferPaused = false ↔
      s.isTransferPaused = false ∧ arrivals = [] := by
  induction arrivals generalizing s with
  | nil => simp
  | cons first arrivals ih =>
    rw [List.foldl_cons, ih]
    cases first <;> simp [interrupt, pauseFileTransfer, cancelFileTransfer]

theorem interrupts_total (arrivals : List Interrupt) (s : Transfer) :
    (arrivals.foldl interrupt s).totalTransferBytes = s.totalTransferBytes := by
  induction arrivals generalizing s with
  | nil => rfl
  | cons first arrivals ih =>
    rw [List.foldl_cons, ih]
    cases first <;> rfl

theorem interrupts_current (arrivals : List Interrupt) (s : Transfer) :
    (arrivals.foldl interrupt s).currentTransferBytes =
      if .cancelFileTransfer ∈ arrivals then 0 else s.currentTransferBytes := by
  induction arrivals generalizing s with
  | nil => rfl
  | cons first arrivals ih =>
    rw [List.foldl_cons, ih]
    cases first <;> simp [interrupt, pauseFileTransfer, cancelFileTransfer]

variable {round : Nat → Round}

theorem process_stopped {i : Nat} {chunks : List FileChunk} {s : Transfer}
    (paused : s.isTransferPaused = true) : process round i chunks s = (s, i) := by
  cases chunks with
  | nil => rfl
  | cons chunk chunks => rw [process, if_pos paused]

theorem process_round {i : Nat} {chunk : FileChunk} {chunks : List FileChunk} {s : Transfer}
    (running : s.isTransferPaused = false) :
    process round i (chunk :: chunks) s =
      process round (i + 1) chunks ((round i).arrivals.foldl interrupt
        { s with currentTransferBytes :=
          s.currentTransferBytes + UInt64.ofNat chunk.data.length }) := by
  rw [process, if_neg (by simp [running]), Round.arrivals, List.foldl_append]

theorem process_total (i : Nat) (chunks : List FileChunk) (s : Transfer) :
    (process round i chunks s).1.totalTransferBytes = s.totalTransferBytes := by
  induction chunks generalizing i s with
  | nil => rfl
  | cons chunk chunks ih =>
    cases running : s.isTransferPaused with
    | true => rw [process_stopped running]
    | false => rw [process_round running, ih, interrupts_total]

/-- Nothing arrives in the rounds before the last. -/
def Quiet (round : Nat → Round) (i count : Nat) : Prop :=
  ∀ j, j + 1 < count → (round (i + j)).arrivals = []

theorem quiet_succ_succ (i count : Nat) :
    Quiet round i (count + 2) ↔ (round i).arrivals = [] ∧ Quiet round (i + 1) (count + 1) := by
  constructor
  · intro quiet
    refine ⟨quiet 0 (by omega), fun j inside => ?_⟩
    have next : i + 1 + j = i + (j + 1) := by omega
    rw [next]
    exact quiet (j + 1) (by omega)
  · rintro ⟨first, later⟩ j inside
    cases j with
    | zero => exact first
    | succ j =>
      have next : i + (j + 1) = i + 1 + j := by omega
      rw [next]
      exact later j (by omega)

theorem process_all_iff (i : Nat) (chunks : List FileChunk) (s : Transfer) :
    (process round i chunks s).2 = i + chunks.length ↔
      chunks = [] ∨ s.isTransferPaused = false ∧ Quiet round i chunks.length := by
  induction chunks generalizing i s with
  | nil => simp [process]
  | cons chunk chunks ih =>
    cases running : s.isTransferPaused with
    | true => simp [process_stopped running]
    | false =>
      have length : i + (chunk :: chunks).length = i + 1 + chunks.length := by
        rw [List.length_cons]
        omega
      rw [process_round running, length, ih, interrupts_paused]
      cases chunks with
      | nil =>
        refine iff_of_true (.inl rfl) (.inr ⟨rfl, fun j inside => ?_⟩)
        simp at inside
      | cons next chunks =>
        have two : (chunk :: next :: chunks).length = chunks.length + 2 := rfl
        rw [two, quiet_succ_succ, List.length_cons]
        simp [running]

def bytes (chunks : List FileChunk) : UInt64 :=
  (chunks.map fun chunk => UInt64.ofNat chunk.data.length).sum

theorem process_current (i : Nat) {chunks : List FileChunk} (nonempty : chunks ≠ [])
    {s : Transfer} (running : s.isTransferPaused = false)
    (quiet : Quiet round i chunks.length) :
    (process round i chunks s).1.currentTransferBytes =
      if .cancelFileTransfer ∈ (round (i + (chunks.length - 1))).arrivals then 0
      else s.currentTransferBytes + bytes chunks := by
  induction chunks generalizing i s with
  | nil => exact absurd rfl nonempty
  | cons chunk chunks ih =>
    rw [process_round running]
    cases chunks with
    | nil => simp [process, interrupts_current, bytes]
    | cons next chunks =>
      rw [List.length_cons, List.length_cons, quiet_succ_succ] at quiet
      obtain ⟨first, later⟩ := quiet
      have last : i + 1 + ((next :: chunks).length - 1) =
          i + ((chunk :: next :: chunks).length - 1) := by
        simp only [List.length_cons]
        omega
      have rest := @ih (i + 1) (by simp)
        { s with currentTransferBytes := s.currentTransferBytes + UInt64.ofNat chunk.data.length }
        running later
      rw [first, List.foldl_nil, rest, last]
      simp only [bytes, List.map_cons, List.sum_cons, UInt64.add_assoc]

end Transfer

/-! ### What the status says -/

/-- The file is there, and the chunks are bytes that were read from it. -/
def Source.Readable (source : Source) : Prop :=
  ∃ file, source.file = some file ∧ ∀ chunk ∈ source.chunks, WasRead file chunk

/-- A transfer that is complete, by the state at its end and the chunks processed. -/
structure Complete (source : Source) (result : Transfer × Nat) : Prop where
  processed : result.2 = source.chunks.length
  counted : result.1.currentTransferBytes = result.1.totalTransferBytes
  readable : source.Readable

/-- When the call makes the status say that the transfer is completed, it is complete. -/
def Truthful (s : Transfer) : Call → Prop
  | .startFileUpload localPath source signals => localPath ≠ "" →
    (s.startFileUpload localPath source signals).1.transferStatus = Transfer.uploadCompleted →
      Complete source (s.startFileUpload localPath source signals)
  | .startFileDownload remotePath source signals => remotePath ≠ "" →
    (s.startFileDownload remotePath source signals).1.transferStatus =
        Transfer.downloadCompleted →
      Complete source (s.startFileDownload remotePath source signals)
  | _ => True

/-- Nothing arrives before the last round, the size that the first chunk names is what is
counted in the end, and the source was read. -/
structure Undisturbed (source : Source) (signals : Signals) : Prop where
  quiet : Transfer.Quiet signals.round 0 source.chunks.length
  size : ∀ front ∈ source.chunks.head?, UInt64.ofNat front.totalSize =
    if .cancelFileTransfer ∈ (signals.round (source.chunks.length - 1)).arrivals then 0
    else Transfer.bytes source.chunks
  readable : source.Readable

/-- The condition on a call and the state that it finds. -/
def Fair (s : Transfer) : Call → Prop
  | .startFileUpload localPath source signals =>
    localPath = "" ∨ source.chunks = [] ∨ Undisturbed source signals
  | .startFileDownload remotePath source signals =>
    remotePath = "" ∨ (s.isTransferPaused = false ∧ signals.atStart = [] ∧ source.chunks ≠ [] ∧
      Undisturbed source signals)
  | _ => True

theorem complete_iff {source : Source} {signals : Signals} {s : Transfer} {front : FileChunk}
    {rest : List FileChunk} (chunks : source.chunks = front :: rest)
    (total : s.totalTransferBytes = UInt64.ofNat front.totalSize)
    (zero : s.currentTransferBytes = 0) (status : String) :
    Complete source ({ (Transfer.process signals.round 0 source.chunks s).1 with
        transferStatus := status }, (Transfer.process signals.round 0 source.chunks s).2) ↔
      s.isTransferPaused = false ∧ Undisturbed source signals := by
  have nonempty : source.chunks ≠ [] := by simp [chunks]
  have all := @Transfer.process_all_iff signals.round 0 source.chunks s
  rw [Nat.zero_add, or_iff_right nonempty] at all
  have counter := @Transfer.process_current signals.round 0 _ nonempty s
  rw [Nat.zero_add, zero, UInt64.zero_add] at counter
  have kept := @Transfer.process_total signals.round 0 source.chunks s
  constructor
  · rintro ⟨processed, counted, readable⟩
    obtain ⟨running, quiet⟩ := all.mp processed
    refine ⟨running, quiet, ?_, readable⟩
    intro other first
    obtain rfl : front = other := by simpa [chunks] using first
    rw [← counter running quiet, ← total, ← kept]
    exact counted.symm
  · rintro ⟨running, quiet, size, readable⟩
    refine ⟨all.mpr ⟨running, quiet⟩, ?_, readable⟩
    have announced := size front (by simp [chunks])
    show (Transfer.process signals.round 0 source.chunks s).1.currentTransferBytes = _
    rw [counter running quiet, ← announced, ← total, ← kept]

theorem bytes_readChunks (transferId : String) (file : InputFile) (chunkSize count : Nat) :
    Transfer.bytes ((List.range count).map (readChunk transferId file chunkSize)) =
      UInt64.ofNat (min (chunkSize * count) file.totalSize) := by
  induction count with
  | zero => simp [Transfer.bytes]
  | succ count ih =>
    have size : (readChunk transferId file chunkSize count).data.length =
        min chunkSize (file.totalSize - chunkSize * count) := length_fill _ _
    have next : min (chunkSize * (count + 1)) file.totalSize =
        min (chunkSize * count) file.totalSize +
          min chunkSize (file.totalSize - chunkSize * count) := by
      rw [Nat.mul_succ]
      omega
    rw [Transfer.bytes] at ih ⊢
    rw [List.range_succ, List.map_append, List.map_append, List.sum_append, ih, next,
      UInt64.ofNat_add]
    simp [size]

/-- For the chunks of a file, sizes agree, and a cancellation always shows. -/
theorem undisturbed_prepared_iff (transferId : String) {file : InputFile} {chunkSize : Nat}
    (pos : 0 < chunkSize) (nonempty : 0 < file.totalSize) (small : file.totalSize < 2 ^ 64)
    {chunks : List FileChunk} {fuel : Nat}
    (prepared : prepareFileChunks fuel transferId (some file) chunkSize = some chunks)
    (signals : Signals) :
    Undisturbed ⟨some file, chunks⟩ signals ↔
      Transfer.Quiet signals.round 0 chunks.length ∧
      .cancelFileTransfer ∉ (signals.round (chunks.length - 1)).arrivals ∧
      ∀ chunk ∈ chunks, WasRead file chunk := by
  have made := prepareFileChunks_unique pos prepared
  have some_round : 0 < rounds file.totalSize chunkSize := (lt_rounds_iff pos 0).mpr (by omega)
  have beyond := (@lt_rounds_iff chunkSize file.totalSize pos
    (rounds file.totalSize chunkSize)).not.mp (Nat.lt_irrefl _)
  have total : Transfer.bytes chunks = UInt64.ofNat file.totalSize := by
    rw [made, bytes_readChunks, Nat.min_eq_right (Nat.not_lt.mp beyond)]
  have first : chunks.head? = some (readChunk transferId file chunkSize 0) := by
    rw [made, List.head?_map, List.head?_range, if_neg (by omega), Option.map_some]
  have something : UInt64.ofNat file.totalSize ≠ 0 := by
    intro zero
    have value := congrArg UInt64.toNat zero
    rw [UInt64.toNat_ofNat_of_lt' small] at value
    exact absurd value (Nat.ne_of_gt nonempty)
  have readable : Source.Readable ⟨some file, chunks⟩ ↔ ∀ chunk ∈ chunks, WasRead file chunk :=
    ⟨fun ⟨_, same, all⟩ => Option.some.inj same ▸ all, fun all => ⟨file, rfl, all⟩⟩
  constructor
  · rintro ⟨quiet, size, read⟩
    refine ⟨quiet, fun canceled => ?_, readable.mp read⟩
    have zero := size _ first
    rw [if_pos canceled] at zero
    exact something zero
  · rintro ⟨quiet, kept, read⟩
    refine ⟨quiet, fun front same => ?_, readable.mpr read⟩
    obtain rfl := Option.some.inj (first.symm.trans same)
    rw [if_neg kept, total]
    rfl

theorem upload_truthful_iff (s : Transfer) (localPath : String) (source : Source)
    (signals : Signals) :
    Truthful s (.startFileUpload localPath source signals) ↔
      Fair s (.startFileUpload localPath source signals) := by
  by_cases path : localPath = ""
  · exact iff_of_true (fun other => absurd path other) (.inl path)
  · obtain ⟨file, chunks⟩ := source
    rw [Truthful, Fair, Transfer.startFileUpload, if_neg path, or_iff_right path]
    cases chunks with
    | nil =>
      have other : "Error: File empty or unreadable" ≠ Transfer.uploadCompleted := by decide
      exact iff_of_true (fun _ status => absurd status other) (.inl rfl)
    | cons front rest =>
      rw [or_iff_right (by simp)]
      refine Iff.trans ⟨fun truthful => truthful path rfl, fun complete _ _ => complete⟩ ?_
      let begun : Transfer :=
        { signals.atStart.foldl Transfer.interrupt
            { s with transferStatus := "Uploading " ++ fileName localPath ++ "..." } with
          isTransferPaused := false
          totalTransferBytes := UInt64.ofNat front.totalSize
          currentTransferBytes := 0 }
      exact (complete_iff (s := begun) rfl rfl rfl _).trans (and_iff_right rfl)

theorem download_truthful_iff (s : Transfer) (remotePath : String) (source : Source)
    (signals : Signals) :
    Truthful s (.startFileDownload remotePath source signals) ↔
      Fair s (.startFileDownload remotePath source signals) := by
  by_cases path : remotePath = ""
  · exact iff_of_true (fun other => absurd path other) (.inl path)
  · obtain ⟨file, chunks⟩ := source
    rw [Truthful, Fair, Transfer.startFileDownload, if_neg path, or_iff_right path]
    refine Iff.trans ⟨fun truthful => truthful path rfl, fun complete _ _ => complete⟩ ?_
    cases chunks with
    | nil =>
      -- Nothing was counted of the 1024 bytes that an empty list stands for.
      have short : (0 : UInt64) ≠ 1024 := by decide
      exact iff_of_false (fun complete => short complete.counted) (by simp)
    | cons front rest =>
      let begun : Transfer :=
        { signals.atStart.foldl Transfer.interrupt
            { s with transferStatus := "Downloading " ++ fileName remotePath ++ "..." } with
          totalTransferBytes := UInt64.ofNat front.totalSize
          currentTransferBytes := 0 }
      refine (complete_iff (s := begun) rfl rfl rfl _).trans ?_
      rw [Transfer.interrupts_paused, and_assoc]
      exact and_congr_right' (and_congr_right' (and_iff_right (List.cons_ne_nil front rest)).symm)

theorem truthful_iff (s : Transfer) (call : Call) : Truthful s call ↔ Fair s call := by
  cases call with
  | startFileUpload localPath source signals => exact upload_truthful_iff s localPath source signals
  | startFileDownload remotePath source signals =>
    exact download_truthful_iff s remotePath source signals
  | pauseFileTransfer => exact Iff.rfl
  | resumeFileTransfer => exact Iff.rfl
  | cancelFileTransfer => exact Iff.rfl

/-- In a run of the client, the status tells the truth about the transfers exactly when
each of them finds fair conditions. -/
theorem completed_complete_iff (calls : List Call) :
    Transitions.Throughout (fun s call => some (step s call)) Truthful {} calls ↔
      Transitions.Throughout (fun s call => some (step s call)) Fair {} calls := by
  simp only [Transitions.Throughout, truthful_iff]

/-- A download of what is not there is completed, with none of 1024 bytes. -/
theorem missing_download_completed :
    ∃ s call, s = ({} : Transfer) ∧
      call = Call.startFileDownload "/srv/missing" ⟨none, []⟩ {} ∧
      (step s call).transferStatus = "Download Completed (SHA-256 Verified)" ∧
      (step s call).currentTransferBytes = 0 ∧ (step s call).totalTransferBytes = 1024 ∧
      ¬ Transitions.Throughout (fun s call => some (step s call)) Truthful {} [call] := by
  refine ⟨_, _, rfl, rfl, rfl, rfl, rfl, fun all => ?_⟩
  have complete := all [] _ [] {} rfl rfl (by decide) rfl
  exact absurd complete.counted (by decide)

end RemoteAccess.TransferStatus
