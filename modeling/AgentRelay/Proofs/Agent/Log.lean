import AgentRelay.Agent.Command
import AgentRelay.Proofs.Job.Payload
import AgentRelay.Proofs.Session.OwnKeys
import AgentRelay.Proofs.Storage.Tree
import Mathlib.Data.String.Basic

/-!
# The log of a run

The log of a run goes by the key of its step. Separators are replaced, so the log always lies in the folder
for logs. But a key can be of any length, and it can hold the character that ends texts for the system: then
no file can have that name, and the log cannot be written.

* `IsFileName`: a file can have the name. `SessionStep.isFileName_logName_iff` says when that of a log is one.
* `CommandRunner.writeLog_of_isFileName` and `writeLog_of_not_isFileName` are what becomes of a log.
* `Job.log_of_delivery` puts them together for the jobs of deliveries.
-/

namespace AgentRelay

open Json

/-- A name that a file can have. -/
structure IsFileName (name : String) : Prop where
  not_empty : name ≠ ""
  not_here : name ≠ "."
  not_up : name ≠ ".."
  slash_notMem : '/' ∉ name.toList
  nul_notMem : '\x00' ∉ name.toList
  short : name.utf8ByteSize ≤ Disk.longestName

/-! ### The name of a run -/

section TaskId

variable {key : String}

theorem slash_notMem_taskId (key : String) : '/' ∉ (taskId key).toList := by
  unfold taskId
  split
  · decide
  · rw [String.toList_ofList, List.mem_map]
    rintro ⟨c, -, hc⟩
    split_ifs at hc with hseparator
    · simp at hc
    · exact hseparator (hc ▸ by decide)

theorem toList_taskId (h : Text.filled? key = some key) :
    (taskId key).toList = key.toList.map fun c => if isSeparator c then '_' else c := by
  simp [taskId, h]

/-- Only separators are replaced. -/
theorem nul_mem_taskId (h : Text.filled? key = some key) :
    '\x00' ∈ (taskId key).toList ↔ '\x00' ∈ key.toList := by
  rw [toList_taskId h, List.mem_map]
  constructor
  · rintro ⟨c, hc, hnul⟩
    split_ifs at hnul
    · simp at hnul
    · exact hnul ▸ hc
  · exact fun hnul => ⟨'\x00', hnul, by decide⟩

theorem utf8Size_of_isSeparator {c : Char} (h : isSeparator c = true) : c.utf8Size = 1 := by
  simp only [isSeparator, Bool.or_eq_true, beq_iff_eq] at h
  rcases h with ((rfl | rfl) | rfl) | rfl <;> decide

/-- A separator and what replaces it are of one length. -/
theorem utf8ByteSize_taskId (h : Text.filled? key = some key) :
    (taskId key).utf8ByteSize = key.utf8ByteSize := by
  have hlen : ∀ cs : List Char,
      String.utf8Len (cs.map fun c => if isSeparator c then '_' else c) = String.utf8Len cs := by
    intro cs
    induction cs with
    | nil => rfl
    | cons c cs ih =>
      rw [List.map_cons, String.utf8Len_cons, String.utf8Len_cons, ih]
      split_ifs with hc
      · rw [utf8Size_of_isSeparator hc]
        rfl
      · rfl
  rw [← String.utf8Len_toList, toList_taskId h, hlen, String.utf8Len_toList]

end TaskId

/-- The name of the log of a run. -/
def AgentRequest.logName (r : AgentRequest) : String := r.taskId ++ ".log"

namespace AgentRequest

theorem length_logName_gt (r : AgentRequest) : 2 < r.logName.toList.length := by
  simp [logName]

/-- The log of a run goes by a name, which is not just dots. -/
theorem logName_ne (r : AgentRequest) : r.logName ≠ "" ∧ r.logName ≠ "." ∧ r.logName ≠ ".." := by
  have hlong := r.length_logName_gt
  refine ⟨fun h => ?_, fun h => ?_, fun h => ?_⟩ <;> simp [h] at hlong

theorem isFileName_logName_iff {r : AgentRequest} (hslash : '/' ∉ r.logName.toList) :
    IsFileName r.logName ↔ '\x00' ∉ r.logName.toList ∧ r.logName.utf8ByteSize ≤ Disk.longestName :=
  ⟨fun h => ⟨h.nul_notMem, h.short⟩, fun ⟨hnul, hshort⟩ =>
    ⟨r.logName_ne.1, r.logName_ne.2.1, r.logName_ne.2.2, hslash, hnul, hshort⟩⟩

end AgentRequest

namespace SessionStep

variable {s : SessionStep}

theorem logName_agentRequest (s : SessionStep) : s.agentRequest.logName = taskId s.baseKey ++ ".log" := rfl

theorem slash_notMem_logName (s : SessionStep) : '/' ∉ s.agentRequest.logName.toList := by
  simpa [logName_agentRequest] using slash_notMem_taskId s.baseKey

theorem nul_mem_logName (h : Text.filled? s.baseKey = some s.baseKey) :
    '\x00' ∈ s.agentRequest.logName.toList ↔ '\x00' ∈ s.baseKey.toList := by
  simpa [logName_agentRequest] using nul_mem_taskId h

/-- A file can have the name of a log when its key is short enough and has no character that ends texts. -/
theorem isFileName_logName_iff (h : Text.filled? s.baseKey = some s.baseKey) :
    IsFileName s.agentRequest.logName ↔ '\x00' ∉ s.baseKey.toList ∧ s.baseKey.utf8ByteSize ≤ 251 := by
  have hsize : s.agentRequest.logName.utf8ByteSize = s.baseKey.utf8ByteSize + 4 := by
    rw [logName_agentRequest, String.utf8ByteSize_append, utf8ByteSize_taskId h]
    rfl
  have hshort : s.agentRequest.logName.utf8ByteSize ≤ Disk.longestName ↔ s.baseKey.utf8ByteSize ≤ 251 := by
    rw [hsize, Disk.longestName]
    omega
  rw [AgentRequest.isFileName_logName_iff s.slash_notMem_logName, nul_mem_logName h, hshort]

end SessionStep

/-! ### Writing the log -/

/-- The content stands in a place, and everything else is as it was. -/
def Disk.HoldsBeside (d' d : Disk) (place : String) (content : Bytes) : Prop :=
  d'.entry? place = some (.file content) ∧ ∀ other ≠ place, d'.entry? other = d.entry? other

theorem Disk.holdsBeside_put {d : Disk} {place : String} (h : place.isEmpty = false) (before content : Bytes) :
    HoldsBeside ((d.put place (.file before)).put place (.file content)) d place content := by
  refine ⟨entry?_put_self _ h, fun other hother => ?_⟩
  rw [entry?_put, entry?_put, if_neg hother, if_neg hother, entry?]
  split <;> rfl

/-- Folders are made at readable paths only. -/
theorem Disk.nul_notMem_of_makeFolders {d d' : Disk} {path : String} (h : d.makeFolders path = (.ok (), d')) :
    '\x00' ∉ path.toList := by
  unfold makeFolders at h
  split at h
  · rename_i hempty
    obtain rfl := String.isEmpty_iff.1 hempty
    decide
  · split at h
    · cases (Prod.mk.inj h).1
    · exact (readable_eq_ok.1 ‹_›).1

namespace CommandRunner

/-- Files are those of a disk. How programs end and where paths lead is told by two functions. -/
def onDisk (ending : Invocation → CommandEnding) (fullPath : String → Option String) :
    (q : CommandQuestion) → StateM Disk (CommandAnswer q)
  | .run x => pure (ending x)
  | .file q => Disk.perform q
  | .fullPath path => pure (fullPath path)

variable {c : CommandRunner} {r : AgentRequest} {o : CommandOutput} {folder : String} {d d₁ d₂ : Disk}
  {way : Disk.Way} (ending : Invocation → CommandEnding) (fullPath : String → Option String)

section FileStep

variable {α : Type} {q : FileQuestion} (wrap : OsError → CommandError)
  (next : q.Result → Script CommandQuestion CommandAnswer (Except CommandError α))

/-- A run goes on from what the disk answers. -/
theorem run_fileStep_ok {a : q.Result} (h : d.answer q = (.ok a, d₁)) :
    ((fileStep onFile q wrap next).run (onDisk ending fullPath)).run d =
      ((next a).run (onDisk ending fullPath)).run d₁ := by
  have hperform : (Disk.perform q).run d = (.ok a, d₁) := h
  exact Script.run_bind_eq hperform

/-- It ends when the disk answers with an error. -/
theorem run_fileStep_error {e : OsError} (h : d.answer q = (.error e, d₁)) :
    ((fileStep onFile q wrap next).run (onDisk ending fullPath)).run d = (.error (wrap e), d₁) := by
  have hperform : (Disk.perform q).run d = (.error e, d₁) := h
  exact Script.run_bind_eq hperform

end FileStep

variable (hdir : c.logDir = some folder) (hmade : d.makeFolders folder = (.ok (), d₁))

section Steps

include hdir hmade

/-- The log is written when its file can be opened and written. -/
theorem run_writeLog {d₃ : Disk} (hopened : d₁.opened false (Path.join folder r.logName) = .ok d₂)
    (hwrite : d₂.write (Path.join folder r.logName) (logContent o) = .ok d₃) :
    ∃ full, ((c.writeLog r o).run (onDisk ending fullPath)).run d = (.ok (some full), d₃) := by
  have hfolders : d.answer (.makeFolders folder) = (.ok (), d₁) := hmade
  have htruncated : d₁.answer (.truncate (Path.join folder r.logName)) = (.ok (), d₂) :=
    congrArg d₁.changed hopened
  have hwritten : d₂.answer (.write (Path.join folder r.logName) (logContent o)) = (.ok (), d₃) :=
    congrArg d₂.changed hwrite
  simp only [writeLog, hdir]
  refine ⟨(fullPath (Path.join folder r.logName)).getD (Path.join folder r.logName), ?_⟩
  exact (run_fileStep_ok _ _ _ _ hfolders).trans
    ((run_fileStep_ok _ _ _ _ htruncated).trans (run_fileStep_ok _ _ _ _ hwritten))

theorem run_writeLog_error {e : OsError} (hopened : d₁.opened false (Path.join folder r.logName) = .error e) :
    ((c.writeLog r o).run (onDisk ending fullPath)).run d =
      (.error (.log (Path.join folder r.logName) e), d₁) := by
  have hfolders : d.answer (.makeFolders folder) = (.ok (), d₁) := hmade
  have htruncated : d₁.answer (.truncate (Path.join folder r.logName)) = (.error e, d₁) :=
    congrArg d₁.changed hopened
  simp only [writeLog, hdir]
  exact (run_fileStep_ok _ _ _ _ hfolders).trans (run_fileStep_error _ _ _ _ htruncated)

end Steps

section Named

variable (hway : d₁.Reaches [] (Path.parts folder) way) (hslash : '/' ∉ r.logName.toList)
  (hsize : (Path.join folder r.logName).utf8ByteSize ≤ Disk.longestPath)
include hmade hway hslash hsize

/-- The path of a log leads into the folder for logs. -/
theorem locate_log (hnul : '\x00' ∉ r.logName.toList) :
    d₁.locate (Path.join folder r.logName) = .ok (.named (way.child r.logName) r.logName false) := by
  have hpath : '\x00' ∉ (Path.join folder r.logName).toList := by
    rw [Path.mem_join (by decide) (Path.head?_ne_slash hslash)]
    exact not_or.2 ⟨Disk.nul_notMem_of_makeFolders hmade, hnul⟩
  have hreadable := Disk.readable_eq_ok.2 ⟨hpath, hsize, Path.join_ne_empty r.logName_ne.1 folder⟩
  exact Disk.locate_join hway hslash r.length_logName_gt hreadable

include hdir

/-- A log whose name a file can have is written into the folder for logs. -/
theorem writeLog_of_isFileName (hname : IsFileName r.logName)
    (hfree : d₁.entry? (way.child r.logName) ≠ some .folder) :
    ∃ full d₂, ((c.writeLog r o).run (onDisk ending fullPath)).run d = (.ok (some full), d₂) ∧
      d₂.HoldsBeside d₁ (way.child r.logName) (logContent o) := by
  have hlocate := locate_log hmade hway hslash hsize hname.nul_notMem
  have hopened := Disk.opened_of_locate hlocate hfree (Disk.missing_eq_notFound.2 hname.short) false
  have hleads : d₁.LeadsTo (Path.join folder r.logName) (way.child r.logName) := ⟨_, hlocate⟩
  have hroot := hleads.isEmpty_eq_false
  have hwrite := Disk.write_of_leadsTo (hleads.mono (Disk.keepsFolders_put hfree))
    (Disk.entry?_put_self (.file []) hroot) (logContent o)
  obtain ⟨full, hrun⟩ := run_writeLog ending fullPath hdir hmade hopened hwrite
  exact ⟨full, _, hrun, Disk.holdsBeside_put hroot _ _⟩

/-- A log whose name no file can have is not written. -/
theorem writeLog_of_not_isFileName (hname : ¬ IsFileName r.logName)
    (hfree : d₁.entry? (way.child r.logName) = none) :
    ((c.writeLog r o).run (onDisk ending fullPath)).run d = (.error (.log (Path.join folder r.logName)
      (if '\x00' ∈ r.logName.toList then .unusableName else .nameTooLong)), d₁) := by
  have hopened : d₁.opened false (Path.join folder r.logName) =
      .error (if '\x00' ∈ r.logName.toList then .unusableName else .nameTooLong) := by
    split_ifs with hnul
    · have hpath : '\x00' ∈ (Path.join folder r.logName).toList :=
        (Path.mem_join (by decide) (Path.head?_ne_slash hslash)).2 (.inr hnul)
      have hreadable : Disk.readable (Path.join folder r.logName) = .error .unusableName := by
        rw [Disk.readable, if_pos (List.contains_iff_mem.2 hpath)]
      rw [Disk.opened, Disk.locate, hreadable]
      rfl
    · rw [AgentRequest.isFileName_logName_iff hslash] at hname
      have hlong : Disk.missing r.logName = .nameTooLong :=
        if_pos (Nat.not_le.1 fun hshort => hname ⟨hnul, hshort⟩)
      have hother : Disk.missing r.logName ≠ .notFound := hlong ▸ by decide
      rw [Disk.opened_of_missing (locate_log hmade hway hslash hsize hnul) hfree hother, hlong]
  exact run_writeLog_error ending fullPath hdir hmade hopened

end Named

/-- A program is not started when the name of its run holds the character that ends texts. -/
theorem run_of_nul_mem (hnul : '\x00' ∈ r.taskId.toList) :
    c.run r = .done (.error (.notStarted c.program .unusableText)) := by
  have hfault : (c.invocation r).fault? = some .unusableText := by
    refine if_pos (List.any_eq_true.2 ⟨r.taskId, ?_, by simpa using hnul⟩)
    simp [Invocation.texts, invocation]
  simp only [run, hfault]

/-- What becomes of the log of a run, once its folder is made and a way leads there. -/
structure LogEnds (c : CommandRunner) (r : AgentRequest) (o : CommandOutput)
    (ending : Invocation → CommandEnding) (fullPath : String → Option String) (folder : String)
    (d d₁ : Disk) (way : Disk.Way) : Prop where
  reaches : d₁.Reaches [] (Path.parts folder) way
  /-- Where a file can have its name, the log is written right in the folder and nothing else is changed. -/
  written : IsFileName r.logName → d₁.entry? (way.child r.logName) ≠ some .folder → ∃ full d₂,
    ((c.writeLog r o).run (onDisk ending fullPath)).run d = (.ok (some full), d₂) ∧
      d₂.HoldsBeside d₁ (way.child r.logName) (logContent o)
  /-- Under any other name it is not written. -/
  refused : ¬ IsFileName r.logName → d₁.entry? (way.child r.logName) = none →
    ((c.writeLog r o).run (onDisk ending fullPath)).run d =
      (.error (.log (Path.join folder r.logName)
        (if '\x00' ∈ r.logName.toList then .unusableName else .nameTooLong)), d₁)

end CommandRunner

/-! ### The logs of deliveries -/

/-- The log of a step is a file that goes by its key. -/
structure SessionStep.LogsByKey (s : SessionStep) : Prop where
  name_ne : s.agentRequest.logName ≠ "" ∧ s.agentRequest.logName ≠ "." ∧ s.agentRequest.logName ≠ ".."
  slash_notMem : '/' ∉ s.agentRequest.logName.toList
  isFileName_iff : IsFileName s.agentRequest.logName ↔
    '\x00' ∉ s.baseKey.toList ∧ s.baseKey.utf8ByteSize ≤ 251
  not_started : ∀ c : CommandRunner, '\x00' ∈ s.baseKey.toList →
    c.run s.agentRequest = .done (.error (.notStarted c.program .unusableText))
  ends : ∀ (c : CommandRunner) (o : CommandOutput) (folder : String) (d d₁ : Disk) ending fullPath,
    c.logDir = some folder → d.makeFolders folder = (.ok (), d₁) →
    (Path.join folder s.agentRequest.logName).utf8ByteSize ≤ Disk.longestPath →
    ∃ way, c.LogEnds s.agentRequest o ending fullPath folder d d₁ way

namespace Job

theorem IsFrom.filled?_baseKey {j : Job} {body : Bytes} {delivery : Delivery} (hj : j.IsFrom body delivery) :
    Text.filled? (SessionStep.ofJob j).baseKey = some (SessionStep.ofJob j).baseKey := by
  obtain ⟨e, -, hmade⟩ := hj
  rw [baseKey_ofJob hmade, (ofDelivery_eq_ok hmade).2.2, filled?_key]

/-- **The log of a delivery is a file in the folder for logs, if its key can be a name.** Whatever was
delivered, the log goes by one name, which is not just dots and has no slash. A file can have this name just
when the key of the step has at most 251 bytes and not the character that ends texts. If so, the log is written
right in the folder for logs, and nothing else is changed. Otherwise the run comes to nothing: the program is
not started, or its log is not written. -/
theorem log_of_delivery {j : Job} {body : Bytes} {delivery : Delivery} (hj : j.IsFrom body delivery) :
    (SessionStep.ofJob j).LogsByKey where
  name_ne := (SessionStep.ofJob j).agentRequest.logName_ne
  slash_notMem := (SessionStep.ofJob j).slash_notMem_logName
  isFileName_iff := SessionStep.isFileName_logName_iff hj.filled?_baseKey
  not_started _ hnul := CommandRunner.run_of_nul_mem ((nul_mem_taskId hj.filled?_baseKey).2 hnul)
  ends c o folder d d₁ ending fullPath hdir hmade hsize := by
    have hslash := (SessionStep.ofJob j).slash_notMem_logName
    obtain ⟨way, hway⟩ := Disk.exists_reaches_of_makeFolders hmade
    exact ⟨way, hway,
      CommandRunner.writeLog_of_isFileName ending fullPath hdir hmade hway hslash hsize,
      CommandRunner.writeLog_of_not_isFileName ending fullPath hdir hmade hway hslash hsize⟩

/-- An event that the rules accept can be delivered as it is written. -/
theorem exists_isFrom_json {e : SessionEvent} (hcheck : e.check = .ok ())
    (htext : (Bytes.ofUtf8? e.json).isSome) (delivery : Delivery) :
    ∃ j : Job, j.IsFrom e.json delivery ∧
      (SessionStep.ofJob j).baseKey = Identity.key (Identity.step e e.json) := by
  have hread := SessionEvent.readAll_json (SessionEvent.isNamed_of_check hcheck)
  have hdecode : SessionEvent.decode e.json = .ok e := by simp [SessionEvent.decode, hread, hcheck]
  obtain ⟨rest, hrest, hvalue⟩ := SessionEvent.typed_reader.exists_valueText hread
  obtain ⟨payload, hpayload⟩ := (Payload.exists_ofBody_iff hrest hvalue).2 htext
  obtain ⟨j, hj⟩ := exists_isFrom delivery hdecode hpayload
  refine ⟨j, hj, ?_⟩
  obtain ⟨e', he', hmade⟩ := hj
  obtain rfl : e = e' := Except.ok.inj (hdecode.symm.trans he')
  rw [baseKey_ofJob hmade, (ofDelivery_eq_ok hmade).2.2]

/-- An event that creates a session. -/
def creation (id : String) : SessionEvent :=
  { action := .known .created, payloadVersion := 1, session := { id, state := .known .pending } }

/-- The output of a program that said a word. -/
def printed : CommandOutput := { status := .code 0, stdout := Bytes.utf8 "go" }

theorem log_of_delivery_spaced :
    ∃ j : Job, j.IsFrom (creation "s 1").json ⟨none, .epoch⟩ ∧
      (SessionStep.ofJob j).agentRequest.logName = "agent-session_v1_s_1_created.log" ∧
      IsFileName (SessionStep.ofJob j).agentRequest.logName ∧
      ∃ full d, ((CommandRunner.writeLog { program := "cat", arguments := [], logDir := some "logs" }
          (SessionStep.ofJob j).agentRequest printed).run
          (CommandRunner.onDisk (fun _ => .exited printed) fun path => some ("/" ++ path))).run {} =
            (.ok (some full), d) ∧
        d.entry? "/logs/agent-session_v1_s_1_created.log" = some (.file (Bytes.utf8 "go")) := by
  obtain ⟨j, hj, hkey⟩ := exists_isFrom_json (e := creation "s 1") (by decide +kernel) (by decide +kernel)
    ⟨none, .epoch⟩
  have hname : (SessionStep.ofJob j).agentRequest.logName = "agent-session_v1_s_1_created.log" := by
    rw [SessionStep.logName_agentRequest, hkey]
    decide +kernel
  have hlogs := log_of_delivery hj
  have hfile := hlogs.isFileName_iff.2 (by rw [hkey]; decide +kernel)
  obtain ⟨way, hway, hwritten, -⟩ := hlogs.ends { program := "cat", arguments := [], logDir := some "logs" } printed
    "logs" {} { entries := [("/logs", .folder)] } (fun _ => .exited printed) (fun path => some ("/" ++ path)) rfl
    (by rfl) (by rw [hname]; decide +kernel)
  obtain rfl : ["/logs"] = way := Except.ok.inj hway
  obtain ⟨full, d, hrun, hentry, -⟩ := hwritten hfile (by rw [hname]; decide +kernel)
  rw [hname] at hentry
  exact ⟨j, hj, hname, hfile, full, d, hrun, hentry⟩

/-- A session id of 300 letters. -/
def longId : String := String.ofList (List.replicate 300 's')

/-- There is a delivery whose log has a name that is too long for a file. -/
theorem not_isFileName_logName :
    ¬ ∀ (body : Bytes) (delivery : Delivery) (j : Job), j.IsFrom body delivery →
      IsFileName (SessionStep.ofJob j).agentRequest.logName := by
  intro h
  have hascii : (creation longId).json.all (· < 128) = true := by decide +kernel
  have htext : (Bytes.ofUtf8? (creation longId).json).isSome :=
    Bytes.isSome_ofUtf8?_of_lt fun x hx => of_decide_eq_true (List.all_eq_true.1 hascii x hx)
  obtain ⟨j, hj, hkey⟩ := exists_isFrom_json (e := creation longId) (by decide +kernel) htext ⟨none, .epoch⟩
  have hchars : longId.toList = List.replicate 300 's' := String.toList_ofList
  have hend : ":created".toList.all (!Text.isBlank ·) = true := by decide
  have hplain : ∀ c ∈ (longId ++ ":created").toList, Text.isBlank c = false := by
    rw [String.toList_append, hchars]
    intro c hc
    rcases List.mem_append.1 hc with hc | hc
    · exact List.eq_of_mem_replicate hc ▸ by decide
    · simpa using List.all_eq_true.1 hend c hc
  have hid : Text.filled? longId = some longId := by
    refine Text.filled?_eq_self (hchars ▸ List.cons_ne_nil _ _) fun c hc => hplain c ?_
    rw [String.toList_append]
    exact List.mem_append_left _ hc
  have hstep : Identity.step (creation longId) (creation longId).json = longId ++ ":created" := by
    simp [Identity.step, Identity.session, creation, hid]
  have htrim : Text.trim (longId ++ ":created") = longId ++ ":created" :=
    Text.trim_eq_self (fun c hc => hplain c (List.mem_of_head? hc)) fun c hc => hplain c (List.mem_of_getLast? hc)
  have hsize : longId.utf8ByteSize = 300 := by decide +kernel
  obtain ⟨-, hshort⟩ := (SessionStep.isFileName_logName_iff hj.filled?_baseKey).1 (h _ _ j hj)
  rw [hkey, hstep, Identity.key, htrim] at hshort
  simp only [String.utf8ByteSize_append, hsize] at hshort
  omega

end Job
end AgentRelay
