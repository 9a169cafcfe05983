import Remux.Compute.Model.Frames
import Mathlib.Data.List.TakeWhile

/-!
# Frames are delivered

A line within the reader's limit is read whole, and its JSON gives back
what was written. The two sides count differently, though: the writer
bounds the JSON, and the reader bounds the line, newline included. So a
message of exactly the largest size is accepted by the writer and
refused by the reader, and every other accepted one is delivered
(`framing_round_trips`).
-/

namespace Remux

open Except

namespace Compute

open Value Report List

/-! ## The JSON of the messages -/

theorem asU32_ofU32 (n : UInt32) : asU32 (ofU32 n) = some n := by
  have hlt : n.toUInt64.toNat < 2 ^ 32 := by simpa using n.toNat_lt
  rw [asU32, ofU32, asU64, Option.bind_some, if_pos hlt]
  simp

/-- A request is read back from its JSON. -/
theorem Request.ofValue_toValue (request : Request) :
    Request.ofValue request.toValue = some request := by
  have hver : (request.toValue.get "protocolVersion").bind asU32 =
      some request.protocolVersion := asU32_ofU32 _
  have htask : (request.toValue.get "task").bind asStr = some request.task := rfl
  have htaskVersion : (request.toValue.get "taskVersion").bind asU32 =
      some request.taskVersion := asU32_ofU32 _
  have hinput : request.toValue.get "input" = some request.input := rfl
  rw [Request.ofValue, hver, htask, htaskVersion, hinput]
  rfl

/-- A frame is read back from its JSON. -/
theorem Frame.ofValue_toValue (frame : Frame) : Frame.ofValue frame.toValue = some frame := by
  cases frame <;> rfl

section

variable {Input Progress Output : Type*} {task : Task Input Progress Output}
variable {floatText : Double → List Char} {fromSlice : List UInt8 → Except String Value}

/-- **What is relied on of `serde_json::from_slice`**: white space after
a value that is parsed is skipped. -/
def SkipsNewline (fromSlice : List UInt8 → Except String Value) : Prop :=
  ∀ bytes value, fromSlice bytes = .ok value → fromSlice (bytes ++ [newline]) = .ok value

/-- The value is parsed from what is printed of it. -/
def ReadsBack (floatText : Double → List Char) (fromSlice : List UInt8 → Except String Value)
    (value : Value) : Prop :=
  fromSlice (toVec floatText value) = .ok value

theorem decode_line {α : Type*} {ofValue : Value → Option α} {value : Value} {a : α}
    (hskip : SkipsNewline fromSlice) (hread : ReadsBack floatText fromSlice value)
    (hof : ofValue value = some a) :
    decode fromSlice ofValue (toVec floatText value ++ [newline]) = .ok a := by
  rw [decode, hskip _ _ hread]
  simp [hof]

/-! ## The writers -/

variable {frame : Frame} {line : List UInt8} {report : Report Progress Output}
variable {reports : List (Report Progress Output)} {chunks : List (List UInt8)}

theorem emit_eq_ok :
    emit floatText frame = .ok line ↔ (toVec floatText frame.toValue).length ≤ maxFrameBytes ∧
      line = toVec floatText frame.toValue ++ [newline] := by
  rw [emit]
  split
  · next hlong => simp [Nat.not_le.2 hlong]
  · next hfits => simp [Nat.not_lt.1 hfits, eq_comm]

/-- What is sent is a request that fits, and a newline. -/
theorem spawn_eq_ok {registry : Registry} {input : Input} {sent : List UInt8}
    (h : registry.spawn floatText task input = .ok sent) :
    ∃ request, task.request input = .ok request ∧
      (toVec floatText request.toValue).length ≤ maxRequestBytes ∧
      sent = toVec floatText request.toValue ++ [newline] := by
  rw [Registry.spawn] at h
  split at h
  · cases h
  split at h
  · cases h
  split at h
  · cases h
  · next request hreq =>
    dsimp only at h
    split at h
    · cases h
    · next hfits => exact ⟨request, hreq, Nat.not_lt.1 hfits, (ok.inj h).symm⟩

/-- A report more is a line more. -/
theorem emitAll_cons {rest : List UInt8} (hfr : task.frame report = .ok frame)
    (hline : emit floatText frame = .ok line) (hrest : emitAll floatText task reports = .ok rest) :
    emitAll floatText task (report :: reports) = .ok (line ++ rest) := by
  rw [emitAll, hfr]
  simp only [bind, Except.bind, hline, hrest, pure, Except.pure]

/-- A worker's reports, one line for each. -/
theorem emitAll_cons_eq_ok {written : List UInt8}
    (h : emitAll floatText task (report :: reports) = .ok written) :
    ∃ frame rest, task.frame report = .ok frame ∧
      (toVec floatText frame.toValue).length ≤ maxFrameBytes ∧
      emitAll floatText task reports = .ok rest ∧
      written = toVec floatText frame.toValue ++ newline :: rest := by
  rw [emitAll] at h
  cases hfr : task.frame report with
  | error error => rw [hfr] at h; cases h
  | ok frame =>
    rw [hfr] at h
    cases hline : emit floatText frame with
    | error error => simp [hline, bind, Except.bind] at h
    | ok line =>
      cases hrest : emitAll floatText task reports with
      | error error => simp [hline, hrest, bind, Except.bind] at h
      | ok rest =>
        obtain ⟨hfits, rfl⟩ := emit_eq_ok.1 hline
        simp only [hline, hrest, bind, Except.bind, pure, Except.pure, Except.ok.injEq,
          append_assoc, singleton_append] at h
        exact ⟨frame, rest, rfl, hfits, rfl, h.symm⟩

/-! ## The readers -/

/-- What a reader of requests makes of one that a writer accepted. -/
theorem readRequest_eq {request : Request} (hfl : PrintsDoubles floatText)
    (hskip : SkipsNewline fromSlice) (hread : ReadsBack floatText fromSlice request.toValue)
    (hfits : (toVec floatText request.toValue).length ≤ maxRequestBytes)
    (hchks : chunks.flatten = toVec floatText request.toValue ++ [newline]) :
    readRequest fromSlice chunks =
      if (toVec floatText request.toValue).length = maxRequestBytes then
        .error (.protocol s!"compute request exceeds {maxRequestBytes} bytes")
      else .ok request := by
  have hlim : (toVec floatText request.toValue).length < maxRequestBytes + 1 := by omega
  obtain ⟨hline, -⟩ := Lines.readUntil_line (newline_not_mem_toVec hfl request.toValue) hlim hchks
  rw [readRequest, hline, length_append, length_singleton]
  split
  · rw [if_pos (by omega)]
  · rw [if_neg (by omega)]
    exact decode_line hskip hread request.ofValue_toValue

/-- **The event of an accepted report** is the one that was reported. -/
theorem event_eq (h : task.frame report = .ok frame) : task.event frame = report.event := by
  cases report with
  | progress progress =>
    cases hval : task.progress.toValue progress with
    | error error => simp [Task.frame, hval, Except.map, Except.mapError] at h
    | ok value =>
      obtain rfl : Frame.progress value = frame := by
        simpa [Task.frame, hval, Except.map, Except.mapError] using h
      have hback := task.progress.fromValue_toValue _ _ hval
      simp [Task.event, hback, event, Except.map, Except.mapError]
  | complete output =>
    cases hval : task.output.toValue output with
    | error error => simp [Task.frame, hval, Except.map, Except.mapError] at h
    | ok value =>
      obtain rfl : Frame.complete value = frame := by
        simpa [Task.frame, hval, Except.map, Except.mapError] using h
      have hback := task.output.fromValue_toValue _ _ hval
      simp [Task.event, hback, event, Except.map, Except.mapError]
  | error message =>
    obtain rfl : Frame.error message = frame := by simpa [Task.frame] using h
    rfl

/-- What a reader of frames makes of a stream that begins with an
accepted one: it refuses the longest, and goes on after the others. -/
theorem readTaskFrames_eq {report : Report Progress Output} {frame : Frame}
    {chunks : List (List UInt8)} {rest : List UInt8} (hfl : PrintsDoubles floatText)
    (hskip : SkipsNewline fromSlice) (hfr : task.frame report = .ok frame)
    (hread : ReadsBack floatText fromSlice frame.toValue)
    (hfits : (toVec floatText frame.toValue).length ≤ maxFrameBytes)
    (hchks : chunks.flatten = toVec floatText frame.toValue ++ newline :: rest) :
    ∃ left, left.flatten = rest ∧ readTaskFrames fromSlice task chunks =
      if (toVec floatText frame.toValue).length = maxFrameBytes then
        [.error (.protocol s!"compute frame exceeds {maxFrameBytes} bytes")]
      else if terminal report.event then [report.event]
      else report.event :: readTaskFrames fromSlice task left := by
  have hlim : (toVec floatText frame.toValue).length < maxFrameBytes + 1 := by omega
  obtain ⟨hline, hleft⟩ := Lines.readUntil_line (newline_not_mem_toVec hfl frame.toValue) hlim hchks
  refine ⟨_, hleft, ?_⟩
  rw [readTaskFrames]
  rw [dif_neg (by rw [hline]; simp), hline, length_append, length_singleton,
    decode_line hskip hread frame.ofValue_toValue]
  have hev : (ok frame).bind task.event = report.event := event_eq hfr
  rw [hev]
  by_cases hlong : (toVec floatText frame.toValue).length = maxFrameBytes
  · rw [if_pos (by omega), if_pos hlong]
  · rw [if_neg (by omega), if_neg hlong]

/-- The end of the output sends nothing. -/
theorem readTaskFrames_nil (h : chunks.flatten = []) :
    readTaskFrames fromSlice task chunks = [] := by
  have hread : (Lines.readUntil newline (maxFrameBytes + 1) chunks).1 = [] := by
    rw [Lines.readUntil_fst, h]
    rfl
  rw [readTaskFrames]
  exact dif_pos hread

/-- A report is the last that is heard where its event ends the task. -/
theorem heard_cons (report : Report Progress Output) (reports : List (Report Progress Output)) :
    heard (report :: reports) =
      if terminal report.event then [report] else report :: heard reports := by
  cases report <;> rfl

/-- **Frames are delivered** but for those of the largest size: a reader
of what a worker wrote is sent the reports in order, up to the one that
ends the task, exactly if none of these has a frame of that size. -/
theorem readTaskFrames_eq_heard_iff (hfl : PrintsDoubles floatText)
    (hskip : SkipsNewline fromSlice) : ∀ {reports : List (Report Progress Output)}
      {written : List UInt8} {chunks : List (List UInt8)},
      (∀ report ∈ reports, ∀ frame, task.frame report = .ok frame →
        ReadsBack floatText fromSlice frame.toValue) →
      emitAll floatText task reports = .ok written → chunks.flatten = written →
      (readTaskFrames fromSlice task chunks = (heard reports).map event ↔
        ∀ report ∈ heard reports, ∀ frame, task.frame report = .ok frame →
          (toVec floatText frame.toValue).length ≠ maxFrameBytes)
  | [], written, chunks, _, hwr, hchks => by
    obtain rfl : [] = written := ok.inj hwr
    simp [readTaskFrames_nil hchks, heard]
  | report :: reports, written, chunks, hreads, hwr, hchks => by
    obtain ⟨frame, rest, hfr, hfits, hrest, rfl⟩ := emitAll_cons_eq_ok hwr
    obtain ⟨left, hleft, heq⟩ := readTaskFrames_eq hfl hskip hfr
      (hreads report mem_cons_self frame hfr) hfits hchks
    have ih := readTaskFrames_eq_heard_iff hfl hskip
      (fun report' hmem => hreads report' (mem_cons_of_mem _ hmem)) hrest hleft
    have hall : ∀ n : ℕ, (∀ frame', task.frame report = .ok frame' →
        (toVec floatText frame'.toValue).length ≠ n) ↔
          (toVec floatText frame.toValue).length ≠ n := by
      intro n
      rw [hfr]
      simp
    rw [heq, heard_cons]
    by_cases hlong : (toVec floatText frame.toValue).length = maxFrameBytes
    · -- the reader's error is not what any report tells
      have hne : report.event ≠
          .error (.protocol s!"compute frame exceeds {maxFrameBytes} bytes") := by
        cases report <;> simp [event]
      rw [if_pos hlong]
      split
      all_goals simp only [map_cons, cons.injEq, hne.symm, false_and, forall_mem_cons,
          hall, hlong, ne_eq, not_true_eq_false]
    · rw [if_neg hlong]
      split
      · simp only [map_cons, map_nil, forall_mem_singleton, hall, hlong, ne_eq, not_false_eq_true]
      · simp only [map_cons, cons.injEq, true_and, forall_mem_cons, hall, hlong,
          ne_eq, not_false_eq_true, ih]

/-- **Framing round-trips but at the limit.** What a writer accepts is
read back, wherever the pipe cuts it, exactly if it is not of the
largest size a writer accepts; for frames, those up to the one that ends
the task count. What is larger the writer refuses. -/
theorem framing_round_trips {registry : Registry} {input : Input} {request : Request}
    {sent written : List UInt8} {reports : List (Report Progress Output)}
    (hfloat : PrintsDoubles floatText) (hskip : SkipsNewline fromSlice)
    (hrequest : task.request input = .ok request)
    (hread : ReadsBack floatText fromSlice request.toValue)
    (hsent : registry.spawn floatText task input = .ok sent)
    (hreads : ∀ report ∈ reports, ∀ frame, task.frame report = .ok frame →
      ReadsBack floatText fromSlice frame.toValue)
    (hwritten : emitAll floatText task reports = .ok written) :
    ((∀ chunks, chunks.flatten = sent → readRequest fromSlice chunks = .ok request) ↔
        (toVec floatText request.toValue).length ≠ maxRequestBytes) ∧
      ((∀ chunks, chunks.flatten = written →
          readTaskFrames fromSlice task chunks = (heard reports).map Report.event) ↔
        ∀ report ∈ heard reports, ∀ frame, task.frame report = .ok frame →
          (toVec floatText frame.toValue).length ≠ maxFrameBytes) ∧
      (toVec floatText request.toValue).length ≤ maxRequestBytes ∧
      ∀ frame, maxFrameBytes < (toVec floatText frame.toValue).length →
        ∃ error, emit floatText frame = .error error := by
  obtain ⟨request', hrequest', hfits, rfl⟩ := spawn_eq_ok hsent
  obtain rfl : request = request' := ok.inj (hrequest.symm.trans hrequest')
  refine ⟨⟨fun h hlong => ?_, fun hshort chunks hchunks => ?_⟩, ⟨fun h => ?_, fun h chunks
    hchunks => ?_⟩, hfits, fun frame hlong => ?_⟩
  · have hok := h [_] List.flatten_singleton
    rw [readRequest_eq hfloat hskip hread hfits List.flatten_singleton, if_pos hlong] at hok
    cases hok
  · rw [readRequest_eq hfloat hskip hread hfits hchunks, if_neg hshort]
  · exact (readTaskFrames_eq_heard_iff hfloat hskip hreads hwritten List.flatten_singleton).1
      (h [written] List.flatten_singleton)
  · exact (readTaskFrames_eq_heard_iff hfloat hskip hreads hwritten hchunks).2 h
  · exact ⟨_, if_pos hlong⟩

end

/-! ## A message of the largest size -/

section

/-- A value told by its type alone. -/
def unitCodec : Codec Unit where
  toValue _ := .ok .null
  fromValue
    | .null => .ok ()
    | _ => .error "invalid type, expected unit"
  fromValue_toValue := by
    rintro ⟨⟩ v h
    obtain rfl : Value.null = v := ok.inj h
    rfl

/-- A task whose input, progress and output are all empty. -/
def exampleTask : Task Unit Unit Unit where
  name := "fixture.double"
  version := 3
  input := unitCodec
  progress := unitCodec
  output := unitCodec

/-- A parser that knows these values only, with any number of newlines
after them. -/
def parseOneOf (values : List Value) (bytes : List UInt8) : Except String Value :=
  let bare := (bytes.reverse.dropWhile (· = newline)).reverse
  ((values.find? fun value => toVec bitsText value = bare).map ok).getD (.error "expected value")

theorem skipsNewline_parseOneOf (values : List Value) : SkipsNewline (parseOneOf values) := by
  intro bytes value h
  simpa [parseOneOf] using h

/-- Each of the values is read back. -/
theorem readsBack_parseOneOf {values : List Value} {value : Value} (h : value ∈ values) :
    ReadsBack bitsText (parseOneOf values) value := by
  have hbare : ((toVec bitsText value).reverse.dropWhile (· = newline)).reverse =
      toVec bitsText value := by
    rw [dropWhile_eq_self_iff.2, reverse_reverse]
    intro hlt hlast
    exact newline_not_mem_toVec printsDoubles_bitsText value
      (of_decide_eq_true hlast ▸ mem_reverse.1 (getElem_mem hlt))
  rw [ReadsBack, parseOneOf, hbare]
  cases hfind : values.find? fun other => toVec bitsText other = toVec bitsText value with
  | none =>
    have hne := find?_eq_none.1 hfind value h
    simp at hne
  | some other =>
    have htext := find?_some hfind
    rw [toVec_inj printsDoubles_bitsText (of_decide_eq_true htext)]
    rfl

/-- A request for that task. -/
def exampleRequest : Request := ⟨protocolVersion, "fixture.double", 3, .null⟩

/-- The request, a progress value and the output. -/
def exampleValues : List Value :=
  [exampleRequest.toValue, (Frame.progress .null).toValue, (Frame.complete .null).toValue]

/-- A request, and a progress value with the output after it, are read
back wherever the pipe cuts them. -/
theorem framing_round_trips_example :
    (∀ chunks, chunks.flatten = toVec bitsText exampleRequest.toValue ++ [newline] →
        readRequest (parseOneOf exampleValues) chunks = .ok exampleRequest) ∧
      ∀ chunks, chunks.flatten = toVec bitsText (Frame.progress .null).toValue ++ [newline] ++
          (toVec bitsText (Frame.complete .null).toValue ++ [newline] ++ []) →
        readTaskFrames (parseOneOf exampleValues) exampleTask chunks =
          [.ok (.progress ()), .ok (.complete ())] := by
  have hreads : ∀ report ∈ [.progress (), .complete ()], ∀ frame,
      exampleTask.frame report = .ok frame →
        ReadsBack bitsText (parseOneOf exampleValues) frame.toValue := by
    rintro (_ | _ | _) hmem frame hframe
    · obtain rfl : Frame.progress .null = frame := ok.inj hframe
      exact readsBack_parseOneOf (by simp [exampleValues])
    · obtain rfl : Frame.complete .null = frame := ok.inj hframe
      exact readsBack_parseOneOf (by simp [exampleValues])
    · simp at hmem
  obtain ⟨hrequest, hframes, -⟩ := @framing_round_trips _ _ _ exampleTask bitsText
    (parseOneOf exampleValues) [("fixture.double", 3)] () exampleRequest _ _ _
    printsDoubles_bitsText (skipsNewline_parseOneOf exampleValues) rfl
    (readsBack_parseOneOf (by simp [exampleValues])) rfl hreads rfl
  refine ⟨hrequest.2 (by decide), hframes.2 ?_⟩
  rintro (_ | _ | _) hmem frame hframe
  · obtain rfl : Frame.progress .null = frame := ok.inj hframe
    decide
  · obtain rfl : Frame.complete .null = frame := ok.inj hframe
    decide
  · simp [heard] at hmem

/-- The bytes of an error with a text of `n` letters. -/
theorem length_toVec_error (n : ℕ) :
    (toVec bitsText (Frame.error (String.ofList (replicate n 'a'))).toValue).length = n + 29 := by
  have hquote : quote (String.ofList (replicate n 'a')) = '"' :: replicate n 'a' ++ ['"'] := by
    rw [quote, String.toList_ofList, flatMap_replicate]
    have hescape : escapeChar 'a' = ['a'] := by decide
    rw [hescape, flatten_replicate_singleton]
  have htext : (Frame.error (String.ofList (replicate n 'a'))).toValue.text bitsText =
      "\x7b\"type\":\"error\",\"message\":\"".toList ++ replicate n 'a' ++ "\"\x7d".toList := by
    rw [Frame.toValue, text, textEntries, textEntries, text, text, hquote]
    · simp only [append_assoc, cons_append]
      rfl
    · simp
  have hbyte : String.utf8EncodeChar 'a' = [97] := by decide
  have hletters : ((replicate n 'a').flatMap String.utf8EncodeChar).length = n := by
    rw [flatMap_replicate, hbyte, flatten_replicate_singleton, length_replicate]
  rw [toVec, htext, flatMap_append, flatMap_append, length_append, length_append, hletters]
  have hbef : ("\x7b\"type\":\"error\",\"message\":\"".toList.flatMap
      String.utf8EncodeChar).length = 27 := by decide
  have haft : ("\"\x7d".toList.flatMap String.utf8EncodeChar).length = 2 := by decide
  omega

/-- An error whose frame is as long as a writer accepts. -/
def longMessage : String := String.ofList (List.replicate (maxFrameBytes - 29) 'a')

/-- A frame of the largest size is refused. -/
theorem refused_of_longest {message : String}
    (hlen : (toVec bitsText (Frame.error message).toValue).length = maxFrameBytes) :
    ∃ written, emitAll bitsText exampleTask [.error message] = .ok written ∧
      readTaskFrames (parseOneOf [(Frame.error message).toValue]) exampleTask [written] =
        [.error (.protocol "compute frame exceeds 16777216 bytes")] := by
  have hline : emit bitsText (.error message) =
      .ok (toVec bitsText (Frame.error message).toValue ++ [newline]) :=
    emit_eq_ok.2 ⟨hlen.le, rfl⟩
  have hemit : emitAll bitsText exampleTask [.error message] =
      .ok (toVec bitsText (Frame.error message).toValue ++ [newline] ++ []) :=
    emitAll_cons rfl hline rfl
  refine ⟨_, hemit, ?_⟩
  obtain ⟨left, -, heq⟩ := @readTaskFrames_eq _ _ _ exampleTask bitsText
    (parseOneOf [(Frame.error message).toValue]) (.error message) (.error message) [_] []
    printsDoubles_bitsText (skipsNewline_parseOneOf _) rfl
    (readsBack_parseOneOf mem_cons_self) hlen.le
    ((flatten_singleton).trans (append_nil _))
  rw [heq, if_pos hlen]
  rfl

/-- The writer accepts the task's error, and the reader tells a protocol
error in its place. -/
theorem longest_frame_refused :
    ∃ written, emitAll bitsText exampleTask [.error longMessage] = .ok written ∧
      readTaskFrames (parseOneOf [(Frame.error longMessage).toValue]) exampleTask [written] =
        [.error (.protocol "compute frame exceeds 16777216 bytes")] ∧
      (heard [.error longMessage] : List (Report Unit Unit)).map Report.event =
        [.error (.task longMessage)] := by
  obtain ⟨written, hwritten, hread⟩ := refused_of_longest (length_toVec_error (maxFrameBytes - 29))
  exact ⟨written, hwritten, hread, rfl⟩

end

end Compute

end Remux
