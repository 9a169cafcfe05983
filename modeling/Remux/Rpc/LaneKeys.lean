import Remux.Rpc.Lanes

/-!
# The key of a lane and its mode

`dispatch_lane` builds the key of a lane as a text, of an extension id, a
thread, a conversation or a session among others, and `dispatch_sender`
keeps the mode the lane was made with. The key of a lane that is served
concurrently is a fixed text. An extension id that a client makes up can
complete `extension:` to four of them, and only that way do two modes meet
under one key.
-/

namespace Remux

open Option DispatchJob

/-- The methods that manage an extension, which they name in their
parameters. -/
def managementMethods : List String :=
  ["remux/extensions/start", "remux/extensions/stop", "remux/extensions/restart",
    "remux/extensions/watch/start", "remux/extensions/watch/stop",
    "remux/extensions/server/build", "remux/extensions/views/build"]

/-- The lanes whose jobs run at once. -/
def concurrentLanes : List (String × DispatchMode) :=
  [("control:liveness", .concurrentControl), ("control:snapshots", .concurrentControl),
    ("core:filesystem", .concurrentBusiness),
    ("extension:codex:app-server-status", .concurrentBusiness),
    ("extension:codex:reads", .concurrentBusiness),
    ("extension:agent:reads", .concurrentBusiness),
    ("extension:terminal:reads", .concurrentBusiness)]

/-- The extension ids whose own lane would be one of them. -/
def readLaneIds : List String :=
  ["codex:app-server-status", "codex:reads", "agent:reads", "terminal:reads"]

/-- The frame names an extension by one of these ids, in the parameters of
a management method or in its method. -/
def namesReadLane (method : String) (work : DispatchWork) : Bool :=
  decide (method ∈ managementMethods) &&
      (paramStr work "extensionId").any (fun id => decide (id ∈ readLaneIds)) ||
    (extensionIdFromMethod method).any fun id => decide (id ∈ readLaneIds)

/-- The mode a key stands for. -/
def laneMode (key : String) : DispatchMode := (concurrentLanes.lookup key).getD .serial

/-! ## Keys with a free part -/

theorem laneMode_eq_serial {key : String} (h : ∀ lane ∈ concurrentLanes, lane.1 ≠ key) :
    laneMode key = .serial := by
  rw [laneMode, List.lookup_eq_none_iff.2 fun lane hlane => ?_, getD_none]
  exact bne_iff_ne.2 (h lane hlane).symm

/-- A text that none of the fixed keys begins with makes no fixed key. -/
theorem laneMode_append {pre : String} (rest : String)
    (h : ∀ lane ∈ concurrentLanes, pre.toList.isPrefixOf lane.1.toList = false) :
    laneMode (pre ++ rest) = .serial := by
  refine laneMode_eq_serial fun lane hlane heq => ?_
  have hpre : pre.toList.isPrefixOf lane.1.toList = true := by
    rw [heq, String.toList_append, List.isPrefixOf_iff_prefix]
    exact List.prefix_append ..
  rw [h lane hlane] at hpre
  cases hpre

/-- The lane of an extension is a fixed one for four ids. -/
theorem laneMode_extension {id : String} (h : id ∉ readLaneIds) :
    laneMode ("extension:" ++ id) = .serial := by
  refine laneMode_eq_serial fun lane hlane heq => h ?_
  have hfixed : ∀ {id' key : String}, key = "extension:" ++ id' → id' ∈ readLaneIds →
      key = "extension:" ++ id → id ∈ readLaneIds := by
    rintro id' _ rfl hid' heq
    have hlist := congrArg String.toList heq
    rw [String.toList_append, String.toList_append, List.append_cancel_left_eq] at hlist
    exact String.toList_inj.1 hlist ▸ hid'
  have hne : ∀ {key : String}, "extension:".toList.isPrefixOf key.toList = false →
      key ≠ "extension:" ++ id := by
    rintro key hpre rfl
    rw [String.toList_append, List.isPrefixOf_iff_prefix.2 (List.prefix_append ..)] at hpre
    cases hpre
  simp only [concurrentLanes, List.mem_cons, List.not_mem_nil, or_false] at hlane
  rcases hlane with rfl | rfl | rfl | rfl | rfl | rfl | rfl
  · exact absurd heq (hne (by decide))
  · exact absurd heq (hne (by decide))
  · exact absurd heq (hne (by decide))
  · exact @hfixed "codex:app-server-status" _ (by decide) (by decide) heq
  · exact @hfixed "codex:reads" _ (by decide) (by decide) heq
  · exact @hfixed "agent:reads" _ (by decide) (by decide) heq
  · exact @hfixed "terminal:reads" _ (by decide) (by decide) heq

/-! ## The ids a frame names -/

variable {method : String}

/-- A method that begins with an extension's segment is that
extension's. -/
theorem extensionIdFromMethod_of_startsWith (id : String) (hne : id.toList ≠ [])
    (hslash : '/' ∉ id.toList) (h : startsWith method ("remux/" ++ id ++ "/")) :
    extensionIdFromMethod method = some id := by
  obtain ⟨rest, hrest⟩ := List.isPrefixOf_iff_prefix.1 h
  have hsplit : method.toList = "remux/".toList ++ (id.toList ++ '/' :: rest) := by
    rw [← hrest, String.toList_append, String.toList_append, List.append_assoc, List.append_assoc]
    rfl
  have hremux : startsWith method "remux/" = true := by
    rw [startsWith, hsplit, List.isPrefixOf_iff_prefix]
    exact List.prefix_append ..
  have hdrop : method.toList.drop "remux/".length = id.toList ++ '/' :: rest := by
    rw [hsplit]
    exact List.drop_left' (by decide)
  have htake : (id.toList ++ '/' :: rest).takeWhile (· ≠ '/') = id.toList := by
    rw [List.takeWhile_append_of_pos, List.takeWhile_cons_of_neg (by simp), List.append_nil]
    intro char hchar
    rw [decide_eq_true_iff]
    rintro rfl
    exact hslash hchar
  rw [extensionIdFromMethod, if_pos hremux, hdrop, if_pos (by simp), htake]
  rw [if_neg (by rw [List.isEmpty_iff]; exact hne), String.ofList_toList]

/-- A frame of another extension names none of the fixed lanes. -/
theorem namesReadLane_eq_false {id : String} (work : DispatchWork)
    (hmgmt : method ∉ managementMethods) (hid : extensionIdFromMethod method = some id)
    (hread : id ∉ readLaneIds) :
    namesReadLane method work = false := by
  rw [namesReadLane, decide_eq_false hmgmt, hid, any_some, decide_eq_false hread]
  rfl

/-- What is of a fixed extension names none of them. -/
theorem namesReadLane_of_startsWith (id : String) (work : DispatchWork) (hne : id.toList ≠ [])
    (hslash : '/' ∉ id.toList) (hid : id ∉ "extensions" :: readLaneIds)
    (h : startsWith method ("remux/" ++ id ++ "/")) : namesReadLane method work = false := by
  have hown := extensionIdFromMethod_of_startsWith id hne hslash h
  rw [List.mem_cons, not_or] at hid
  obtain ⟨hextensions, hread⟩ := hid
  refine namesReadLane_eq_false work (fun hmgmt => hextensions ?_) hown hread
  have hmanaged : extensionIdFromMethod method = some "extensions" := by
    simp only [managementMethods, List.mem_cons, List.not_mem_nil, or_false] at hmgmt
    rcases hmgmt with rfl | rfl | rfl | rfl | rfl | rfl | rfl <;> rfl
  exact some.inj (hown.symm.trans hmanaged)

/-! ## The mode of a lane -/

theorem laneMode_codexLane (method : String) (work : DispatchWork) :
    (codexLane method work).2 = laneMode (codexLane method work).1 := by
  unfold codexLane
  split_ifs
  · rfl
  · rfl
  · rfl
  · rfl
  · exact (laneMode_append _ (by decide +kernel)).symm

theorem laneMode_agentLane (method : String) (work : DispatchWork) :
    (agentLane method work).2 = laneMode (agentLane method work).1 := by
  unfold agentLane
  split_ifs
  · rfl
  · exact (laneMode_append _ (by decide +kernel)).symm

theorem laneMode_terminalLane (method : String) (work : DispatchWork) :
    (terminalLane method work).2 = laneMode (terminalLane method work).1 := by
  unfold terminalLane
  split_ifs
  · rfl
  · dsimp only
    rw [String.append_assoc, String.append_assoc]
    exact (laneMode_append _ (by decide +kernel)).symm

/-- **What a lane is**: of the mode its key stands for, or, where the frame
names an extension by one of the fixed ids, serial under a key that stands
for another mode. -/
theorem dispatchLane_spec (c : ℕ) (method : String) (work : DispatchWork) :
    (namesReadLane method work = true ∧ (dispatchLane c method work).2 = .serial ∧
        laneMode (dispatchLane c method work).1 ≠ .serial) ∨
      (namesReadLane method work = false ∧
        (dispatchLane c method work).2 = laneMode (dispatchLane c method work).1) := by
  have hext : ∀ id, id ∈ readLaneIds → laneMode ("extension:" ++ id) ≠ .serial := by
    decide +kernel
  unfold dispatchLane
  split
  · next hmeth =>
    simp only [List.mem_cons, List.not_mem_nil, or_false] at hmeth
    rcases hmeth with rfl | rfl <;> exact .inr ⟨rfl, rfl⟩
  split
  · next hmeth =>
    refine .inr ⟨?_, (laneMode_append _ (by decide +kernel)).symm⟩
    simp only [List.mem_cons, List.not_mem_nil, or_false] at hmeth
    rcases hmeth with rfl | rfl | rfl | rfl | rfl <;> rfl
  split
  · next hmeth =>
    simp only [List.mem_cons, List.not_mem_nil, or_false] at hmeth
    rcases hmeth with rfl | rfl | rfl | rfl <;> exact .inr ⟨rfl, rfl⟩
  split
  · next hmeth =>
    subst hmeth
    exact .inr ⟨rfl, rfl⟩
  split
  · next hmeth =>
    exact .inr ⟨namesReadLane_of_startsWith "fs" work (by decide) (by decide) (by decide) hmeth,
      rfl⟩
  split
  · next hmeth =>
    have hnames : namesReadLane method work =
        (paramStr work "extensionId").any fun id => decide (id ∈ readLaneIds) := by
      have hown : (extensionIdFromMethod method).any (fun id => decide (id ∈ readLaneIds)) =
          false := by
        simp only [List.mem_cons, List.not_mem_nil, or_false] at hmeth
        rcases hmeth with rfl | rfl | rfl | rfl | rfl | rfl | rfl <;> rfl
      rw [namesReadLane, hown, Bool.or_false, decide_eq_true (show method ∈ managementMethods from
        hmeth), Bool.true_and]
    rw [hnames]
    cases paramStr work "extensionId" with
    | none => exact .inr ⟨rfl, rfl⟩
    | some id =>
      by_cases hid : id ∈ readLaneIds
      · exact .inl ⟨decide_eq_true hid, rfl, hext id hid⟩
      · exact .inr ⟨decide_eq_false hid, (laneMode_extension hid).symm⟩
  next hmgmt =>
  split
  · next hmeth =>
    exact .inr ⟨namesReadLane_of_startsWith "codex" work (by decide) (by decide) (by decide)
      hmeth, laneMode_codexLane method work⟩
  split
  · next hmeth =>
    exact .inr ⟨namesReadLane_of_startsWith "agent" work (by decide) (by decide) (by decide)
      hmeth, laneMode_agentLane method work⟩
  split
  · next hmeth =>
    exact .inr ⟨namesReadLane_of_startsWith "terminal" work (by decide) (by decide) (by decide)
      hmeth, laneMode_terminalLane method work⟩
  have hnames : namesReadLane method work =
      (extensionIdFromMethod method).any fun id => decide (id ∈ readLaneIds) := by
    rw [namesReadLane, decide_eq_false (show ¬method ∈ managementMethods from hmgmt),
      Bool.false_and, Bool.false_or]
  rw [hnames]
  cases extensionIdFromMethod method with
  | none => exact .inr ⟨rfl, rfl⟩
  | some id =>
    by_cases hid : id ∈ readLaneIds
    · exact .inl ⟨decide_eq_true hid, rfl, hext id hid⟩
    · exact .inr ⟨decide_eq_false hid, (laneMode_extension hid).symm⟩

/-- **Two frames of one key are of one mode** exactly where both or neither
names an extension by one of the fixed ids. -/
theorem mode_eq_iff {c c' : ℕ} {method' : String} {work work' : DispatchWork}
    (h : (dispatchLane c method work).1 = (dispatchLane c' method' work').1) :
    (dispatchLane c method work).2 = (dispatchLane c' method' work').2 ↔
      namesReadLane method work = namesReadLane method' work' := by
  obtain ⟨hnames, hmode, hkey⟩ | ⟨hnames, hmode⟩ := dispatchLane_spec c method work <;>
    obtain ⟨hnames', hmode', hkey'⟩ | ⟨hnames', hmode'⟩ := dispatchLane_spec c' method' work'
  · simp only [hmode, hmode', hnames, hnames']
  · rw [hmode, hmode', hnames, hnames', ← h]
    exact iff_of_false hkey.symm nofun
  · rw [hmode, hmode', hnames, hnames', h]
    exact iff_of_false hkey' nofun
  · rw [hmode, hmode', hnames, hnames', h]
    exact iff_of_true rfl rfl

/-! ## The mode of a lane's jobs -/

theorem LaneStep.lane_eq {j : ℕ} {job job' : DispatchJob} {lanes lanes' : Assoc String Lane}
    {permits permits' : DispatchMode → ℕ}
    (h : LaneStep j job lanes permits job' lanes' permits') : job'.lane = job.lane := by
  cases h <;> rfl

namespace WsServer

variable {floatText : Double → List Char} {s s' : WsServer}

/-- A frame names an extension by a fixed id just when the jobs of its
lane's key do. -/
def Alike (s : WsServer) : WsAction → Prop
  | .frame connectionId method work =>
    ∀ job ∈ s.jobs, job.laneKey = (dispatchLane connectionId method work).1 →
      namesReadLane method work = namesReadLane job.method job.work
  | _ => True

instance (s : WsServer) (action : WsAction) : Decidable (Alike s action) := by
  unfold Alike
  split <;> infer_instance

/-- **The lanes agree with the jobs**: jobs of one key are of one mode, and
a lane was made by a job with its key and its mode. -/
structure Agrees (s : WsServer) : Prop where
  one : ∀ lane ∈ s.jobs.map DispatchJob.lane, ∀ lane' ∈ s.jobs.map DispatchJob.lane,
    lane.1 = lane'.1 → lane.2 = lane'.2
  made : ∀ {key lane}, s.lanes.lookup key = some lane →
    (key, lane.mode) ∈ s.jobs.map DispatchJob.lane

/-- The jobs' own steps leave their lanes alone. -/
theorem map_lane_set {j : ℕ} {job job' : DispatchJob} {jobs : List DispatchJob}
    (hjob : jobs[j]? = some job) (hlane : job'.lane = job.lane) :
    (jobs.set j job').map lane = jobs.map lane := by
  rw [List.map_set, hlane]
  refine List.ext_getElem? fun i => ?_
  rw [getElem?_set_of_eq_some (x := job.lane) (by rw [List.getElem?_map, hjob]; rfl)]
  split
  · next heq => rw [heq, List.getElem?_map, hjob, map_some]
  · rfl

/-- Marks leave the lanes of the jobs. -/
theorem map_lane_marks {jobs jobs' : List DispatchJob} (h : Marks jobs jobs') :
    jobs'.map lane = jobs.map lane := by
  refine List.ext_getElem? fun i => ?_
  rw [List.getElem?_map, List.getElem?_map]
  cases hi : jobs[i]? with
  | some job =>
    obtain ⟨job', hi', hsame⟩ := h.forth hi
    rw [hi', map_some, map_some, lane, lane, hsame.connectionId, hsame.method, hsame.work]
  | none =>
    cases hi' : jobs'[i]? with
    | none => rfl
    | some job' =>
      obtain ⟨job, hjob, -⟩ := h.back hi'
      rw [hi] at hjob
      cases hjob

/-- Where the jobs have the lanes they had, the lanes are the ones that
were there or are made by a job. -/
theorem Agrees.of_lanes (h : s.Agrees)
    (hjobs : s'.jobs.map DispatchJob.lane = s.jobs.map DispatchJob.lane)
    (hls : ∀ {key lane'}, s'.lanes.lookup key = some lane' →
      (∃ lane, s.lanes.lookup key = some lane ∧ lane'.mode = lane.mode) ∨
        (key, lane'.mode) ∈ s.jobs.map DispatchJob.lane) : s'.Agrees := by
  refine ⟨by rw [hjobs]; exact h.one, fun hlane => ?_⟩
  rw [hjobs]
  obtain ⟨lane, hold, hmode⟩ | hjob := hls hlane
  · exact hmode ▸ h.made hold
  · exact hjob

/-- **A frame like its jobs agrees with them.** -/
theorem Agrees.frame (h : s.Agrees) {c : ℕ} {method : String} {work : DispatchWork}
    (halike : s.Alike (.frame c method work)) : (s.frame c method work).Agrees := by
  have hjobs : (s.frame c method work).jobs.map DispatchJob.lane =
      s.jobs.map DispatchJob.lane ++ [dispatchLane c method work] := by
    rw [WsServer.frame, List.map_append, List.map_singleton]
    split <;> rfl
  have hnew : ∀ lane ∈ s.jobs.map DispatchJob.lane, lane.1 = (dispatchLane c method work).1 →
      lane.2 = (dispatchLane c method work).2 := by
    intro lane hlane hkey
    obtain ⟨job, hjob, rfl⟩ := List.mem_map.1 hlane
    exact (mode_eq_iff hkey).2 (halike job hjob hkey).symm
  refine ⟨?_, fun hlane => ?_⟩
  · rw [hjobs]
    intro lane hlane lane' hlane' hkey
    rw [List.mem_append, List.mem_singleton] at hlane hlane'
    rcases hlane with hlane | rfl <;> rcases hlane' with hlane' | rfl
    · exact h.one lane hlane lane' hlane' hkey
    · exact hnew lane hlane hkey
    · exact (hnew lane' hlane' hkey.symm).symm
    · rfl
  · rw [hjobs]
    exact List.mem_append_left _ (h.made hlane)

/-- **Every step keeps the agreement.** -/
theorem Agrees.step {action : WsAction} (h : s.Agrees) (halike : s.Alike action)
    (hstep : (wsMachine floatText).step s action = some s') : s'.Agrees := by
  cases action with
  | connect =>
    cases hstep
    exact { h with }
  | frame c method work =>
    cases (ite_none_right_eq_some.1 hstep).2
    exact h.frame halike
  | cancelFrame c id =>
    cases (ite_none_right_eq_some.1 hstep).2
    exact h.of_lanes (map_lane_marks marks_cancelFrame) fun hlane => .inl ⟨_, hlane, rfl⟩
  | markDisconnected c =>
    cases hstep
    exact h.of_lanes (map_lane_marks marks_markDisconnected) fun hlane => .inl ⟨_, hlane, rfl⟩
  | receive key =>
    obtain ⟨mode, j, queue, job, hlane, hjob, rfl⟩ := receive_eq_some.1 hstep
    refine h.of_lanes (map_lane_set hjob rfl) fun {key' lane'} hlane' => .inl ?_
    rw [Assoc.lookup_insert_eq] at hlane'
    split at hlane'
    · next heq => exact ⟨_, heq ▸ hlane, (some.inj hlane') ▸ rfl⟩
    · exact ⟨_, hlane', rfl⟩
  | job j turn =>
    obtain ⟨job, moved, hjob, hmov, rfl⟩ := stepJob_eq_some.1 hstep
    have hlaneStep := laneStep_of_jobStep hmov
    have hsame := hlaneStep.lane_eq
    refine h.of_lanes (map_lane_set hjob hsame) fun hlane => ?_
    obtain ⟨lane, hold, hmode, -⟩ | ⟨rfl, -, rfl⟩ := hlaneStep.lanes_back hlane
    · exact .inl ⟨lane, hold, hmode⟩
    · exact .inr (List.mem_map.2 ⟨job, List.mem_of_getElem? hjob, rfl⟩)

/-- The lanes agree in every reachable state. -/
theorem agrees_of_reachable (h : ((wsMachine floatText).restrict Alike).Reachable s) :
    s.Agrees := by
  refine h.rule ⟨?_, ?_⟩ fun _ _ _ _ hagrees hstep => ?_
  · intro lane hlane
    cases hlane
  · intro key lane hlane
    cases hlane
  · obtain ⟨halike, hstep⟩ := Machine.restrict_step_eq_some.1 hstep
    exact hagrees.step halike hstep

end WsServer

/-- **The key of a lane determines its mode**, but for extensions that are
named by a fixed id. Two frames that are given one key are given one mode
exactly where both or neither names one; and in a run whose frames are in
that like the jobs of their lane's key, the mode of a lane is the mode of
all of its jobs. -/
theorem lane_key_determines_mode (floatText : Double → List Char) :
    (∀ c c' method method' work work',
      (dispatchLane c method work).1 = (dispatchLane c' method' work').1 →
        ((dispatchLane c method work).2 = (dispatchLane c' method' work').2 ↔
          namesReadLane method work = namesReadLane method' work')) ∧
      ∀ s, ((wsMachine floatText).restrict WsServer.Alike).Reachable s →
        ∀ lane, ∀ job ∈ s.jobs, s.lanes.lookup job.laneKey = some lane →
          lane.mode = job.lane.2 := by
  refine ⟨fun _ _ _ _ _ _ h => mode_eq_iff h, fun s hs lane job hjob hlane => ?_⟩
  have hagrees := WsServer.agrees_of_reachable hs
  exact hagrees.one _ (hagrees.made hlane) _ (List.mem_map.2 ⟨job, hjob, rfl⟩) rfl

/-- Two threads' methods without a thread go to one lane, of one mode. -/
theorem lane_key_determines_mode_example :
    (dispatchLane 1 "remux/codex/thread/start" (.notification none)).2 =
      (dispatchLane 2 "remux/codex/turn/start" (.notification none)).2 :=
  ((lane_key_determines_mode fun _ => []).1 1 2 "remux/codex/thread/start" "remux/codex/turn/start"
    (.notification none) (.notification none) (by decide)).2 (by decide)

/-- A request to stop an extension that calls itself `codex:reads`. -/
def stopReads : DispatchWork :=
  .request (.number (.posInt 7))
    (.object [("params", .object [("extensionId", .string "codex:reads")])])

/-- **A serial and a concurrent lane of one key.** The stop of an extension
that calls itself `codex:reads` and a read of Codex's files share the key,
so that the one that comes first makes the lane of both. -/
theorem extension_takes_reads_lane : ¬ ∀ c c' method method' work work',
      (dispatchLane c method work).1 = (dispatchLane c' method' work').1 →
        (dispatchLane c method work).2 = (dispatchLane c' method' work').2 := by
  intro h
  have hmode := h 1 1 "remux/extensions/stop" "remux/codex/files" stopReads (.notification none)
    (by decide)
  revert hmode
  decide

end Remux
