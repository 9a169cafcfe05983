import Remux.Common.Utf8Stream
import Remux.Fs.Model.FileWindow

/-!
# The offset of a line

`find_line_offset` of `fs/file_window.rs`. The file stands still during a
call; the chunks are what its reads return, one after the other, and a read
at the end of the file returns nothing.
-/

namespace Remux

open Utf8

/-- Between two reads: the bytes of a character that is not whole yet, the
bytes read, and the line they end in. -/
structure LineScan where
  utf8Tail : List UInt8
  byteOffset : ℕ
  currentLine : ℕ
  deriving DecidableEq

/-- The inner loop of `find_line_offset`: the offset after the newline before
the target line, or the line the bytes end in. -/
def countLines (targetLine : ℕ) : List UInt8 → ℕ → ℕ → ℕ ⊕ ℕ
  | [], _, currentLine => .inr currentLine
  | byte :: bytes, offset, currentLine =>
    if byte = 10 then
      if currentLine + 1 = targetLine then .inl (offset + 1)
      else countLines targetLine bytes (offset + 1) (currentLine + 1)
    else countLines targetLine bytes (offset + 1) currentLine

/-- What is done with the bytes of a read: the call ends, or it goes on. -/
def LineScan.read (scan : LineScan) (targetLine : ℕ) (chunk : List UInt8) :
    Except (Except FileWindowError ℕ) LineScan :=
  if isLikelyBinary chunk then .error (.error ⟨.binary, "The selected file contains binary data."⟩)
  else
    let received := scan.utf8Tail ++ chunk
    let counted (utf8Tail : List UInt8) : Except (Except FileWindowError ℕ) LineScan :=
      match countLines targetLine chunk scan.byteOffset scan.currentLine with
      | .inl offset => .error (.ok offset)
      | .inr currentLine => .ok ⟨utf8Tail, scan.byteOffset + chunk.length, currentLine⟩
    match fromUtf8 received with
    | .valid => counted []
    | .incomplete validUpTo => counted (received.drop validUpTo)
    | .invalid => .error (.error ⟨.invalidUtf8, "The file is not valid UTF-8."⟩)

/-- What the call ends with where it reads no more. -/
def LineScan.finish (scan : LineScan) (targetLine : ℕ) : Except FileWindowError ℕ :=
  if scan.utf8Tail ≠ [] then .error ⟨.invalidUtf8, "The file is not valid UTF-8."⟩
  else .error ⟨.targetLineNotFound, s!"Line {targetLine} is beyond the end of the file."⟩

/-- The loop of `find_line_offset`. -/
def LineScan.loop (targetLine totalSize : ℕ) :
    List (List UInt8) → LineScan → Except FileWindowError ℕ
  | [], scan => scan.finish targetLine
  | chunk :: chunks, scan =>
    if scan.byteOffset < totalSize ∧ chunk ≠ [] then
      match scan.read targetLine chunk with
      | .error result => result
      | .ok scan => LineScan.loop targetLine totalSize chunks scan
    else scan.finish targetLine

/-- `find_line_offset`. -/
def findLineOffset (chunks : List (List UInt8)) (targetLine totalSize : ℕ) :
    Except FileWindowError ℕ :=
  if targetLine = 1 then .ok 0 else LineScan.loop targetLine totalSize chunks ⟨[], 0, 1⟩

end Remux
