import Remux.Common.Utf8

/-!
# Reading a file by windows

`read_file_window` of `fs/file_window.rs`, without a target line, and
`is_likely_binary` of `fs/core.rs`. The file stands still during a call
and can be read; whether it is a regular file, its bytes and its version
are what the call sees of it.
-/

namespace Remux

open Utf8

/-- `MIN_WINDOW_BYTES`. -/
def minWindowBytes : ℕ := 4

/-- `FileWindowErrorKind`. -/
inductive FileWindowErrorKind where
  | binary
  | changed
  | invalidUtf8
  | read
  | targetLineNotFound
  deriving DecidableEq

/-- `FileWindowError`. -/
structure FileWindowError where
  kind : FileWindowErrorKind
  message : String
  deriving DecidableEq

/-- `FileWindowRequest`. -/
structure FileWindowRequest where
  expectedVersion : Option String
  limit : ℕ
  offset : ℕ

/-- The file at the requested path. -/
structure WindowFile where
  isFile : Bool
  bytes : List UInt8
  version : String

/-- The answer of `read_file_window`. -/
structure FileWindow where
  content : String
  endsMidLine : Bool
  startsMidLine : Bool
  eof : Bool
  nextOffset : Option ℕ
  previousOffset : Option ℕ
  endByte : ℕ
  startByte : ℕ
  totalSizeBytes : ℕ
  version : String
  deriving DecidableEq

/-- A control byte that speaks for a binary file. -/
def isSuspicious (byte : UInt8) : Bool :=
  (byte < 32 || byte == 127) && !([7, 8, 9, 10, 12, 13, 27].contains byte)

/-- `is_likely_binary`. A quotient of two numbers up to 4096 is above the
double `0.1` exactly if it is above a tenth. -/
def isLikelyBinary (buffer : List UInt8) : Bool :=
  let sample := buffer.take 4096
  sample.contains 0 || decide (sample.length < 10 * sample.countP isSuspicious)

/-- `utf8_sequence_width`. -/
def utf8SequenceWidth (byte : UInt8) : ℕ :=
  if byte ≤ 0x7f then 1
  else if 0xc2 ≤ byte ∧ byte ≤ 0xdf then 2
  else if 0xe0 ≤ byte ∧ byte ≤ 0xef then 3
  else if 0xf0 ≤ byte ∧ byte ≤ 0xf4 then 4
  else 0

/-- `(0..n).rev().find(p)`. -/
def findBack (p : ℕ → Bool) : ℕ → Option ℕ
  | 0 => none
  | n + 1 => if p n then some n else findBack p n

/-- `utf8_aligned_start`. -/
def utf8AlignedStart (file : List UInt8) (requested : ℕ) : Except FileWindowError ℕ :=
  let totalSize := file.length
  if requested ≥ totalSize then
    if totalSize > 0 then
      let tail := file.drop (totalSize - 4)
      let firstBoundary := tail.findIdx fun byte => !isContinuation byte
      if firstBoundary = tail.length ∨ ¬ IsUtf8 (tail.drop firstBoundary) then
        .error ⟨.invalidUtf8, "The file ends with invalid UTF-8."⟩
      else .ok totalSize
    else .ok totalSize
  else if !continuesAt file requested then .ok requested
  else if requested = 0 then
    .error ⟨.invalidUtf8, "The requested range starts with invalid UTF-8."⟩
  else
    let lookbehindStart := requested - 3
    let inspectEnd := min totalSize (requested + 4)
    let context := (file.drop lookbehindStart).take (inspectEnd - lookbehindStart)
    let requestedIndex := requested - lookbehindStart
    match findBack (fun index => !continuesAt context index) requestedIndex with
    | none => .error ⟨.invalidUtf8, "The requested range starts within invalid UTF-8."⟩
    | some leadIndex =>
      let width := ((context[leadIndex]?).map utf8SequenceWidth).getD 0
      let sequenceEnd := leadIndex + width
      if width < 2 ∨ sequenceEnd > context.length ∨ sequenceEnd ≤ requestedIndex ∨
          ¬ IsUtf8 ((context.drop leadIndex).take width) then
        .error ⟨.invalidUtf8, "The requested range starts within invalid UTF-8."⟩
      else .ok (lookbehindStart + sequenceEnd)

/-- The loop that moves the end back to a boundary. -/
def retreat (buffer : List UInt8) : ℕ → ℕ
  | 0 => 0
  | endIndex + 1 =>
    if continuesAt buffer (endIndex + 1) then retreat buffer endIndex else endIndex + 1

/-- The loop that moves the end from the first byte up to a boundary. -/
def advance (buffer : List UInt8) : ℕ := 1 + ((buffer.drop 1).takeWhile isContinuation).length

/-- Where the window ends that starts at `start`, from there. -/
def windowLength (file : List UInt8) (limit start : ℕ) : ℕ :=
  let available := file.length - start
  let buffer := (file.drop start).take (min available (limit + 4))
  let endIndex := retreat buffer (min limit available)
  if endIndex = 0 ∧ start < file.length then advance buffer else endIndex

/-- `read_file_window`, from the start of the window on. -/
def readWindowFrom (file : WindowFile) (limit start : ℕ) : Except FileWindowError FileWindow :=
  let totalSize := file.bytes.length
  let startsMidLine := decide (start > 0) && file.bytes[start - 1]? != some 10
  let bytes := (file.bytes.drop start).take (windowLength file.bytes limit start)
  if isLikelyBinary bytes then .error ⟨.binary, "The selected file contains binary data."⟩
  else
    match String.fromUTF8? bytes.toByteArray with
    | none => .error ⟨.invalidUtf8, "The requested range does not contain valid UTF-8."⟩
    | some content =>
      let endByte := start + windowLength file.bytes limit start
      let eof := decide (endByte ≥ totalSize)
      .ok
        { content
          endsMidLine := !eof && bytes.getLast?.any (· != 10)
          startsMidLine
          eof
          nextOffset := if eof then none else some endByte
          previousOffset := if start > 0 then some (start - limit) else none
          endByte
          startByte := start
          totalSizeBytes := totalSize
          version := file.version }

/-- `read_file_window`. -/
def readFileWindow (file : WindowFile) (request : FileWindowRequest) :
    Except FileWindowError FileWindow :=
  if !file.isFile then .error ⟨.read, "Expected a file."⟩
  else if request.expectedVersion.any (· != file.version) then
    .error ⟨.changed, "The file changed. Refresh before loading another range."⟩
  else
    match utf8AlignedStart file.bytes (min request.offset file.bytes.length) with
    | .error error => .error error
    | .ok start => readWindowFrom file request.limit start

end Remux
