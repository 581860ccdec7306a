import AgentRelay.Proofs.Text.Words
import AgentRelay.Proofs.Trace
import AgentRelay.Service

/-!
# Settings that are accepted can be used

Settings are read once, and every part of the service then looks at its own settings with rules of its
own: what is blank, what is zero, what is empty. Whatever the variables hold, settings that are read pass
all of these, and none of them is replaced by a default on the way.

* `value?` is what a variable counts for, `Decides` how it decides a setting.
* `decides_of_read`: each setting is the value of its variable, or its default.
* `isUsable_of_read` is the result for all parts of the service.
-/

namespace AgentRelay

namespace Settings

variable {lookup : String → Option String}

/-- What a variable counts for: its trimmed value, and nothing when that is blank. -/
def value? (lookup : String → Option String) (name : String) : Option String :=
  (lookup name).bind Text.filled?

/-- A variable that is not set, or is blank, counts for nothing. -/
theorem value?_eq_none {name : String} :
    value? lookup name = none ↔ ∀ raw ∈ lookup name, Text.isBlankText raw = true := by
  simp [value?, Text.filled?, Option.bind_eq_none_iff]

theorem filled?_value? {name raw : String} (h : value? lookup name = some raw) :
    Text.filled? raw = some raw := by
  obtain ⟨text, -, htext⟩ := Option.bind_eq_some_iff.1 h
  exact Text.filled?_filled? htext

/-! ### The variables one after the other -/

/-- The variable leaves this part of the settings alone. -/
def Variable.Keeps {α : Type} (v : Variable) (get : Settings → α) : Prop :=
  ∀ raw s s', v.apply raw s = .ok s' → get s' = get s

theorem keeps_variableOf {α β : Type} {name : String}
    {read : String → String → Except SettingsError β} {store : β → Settings → Settings}
    {get : Settings → α} (h : ∀ b s, get (store b s) = get s) : (variableOf name read store).Keeps get := by
  intro raw s s' hs
  unfold variableOf at hs
  cases hread : read name raw with
  | error e => simp [hread, Except.map] at hs
  | ok b =>
    simp only [hread, Except.map, Except.ok.injEq] at hs
    rw [← hs, h]

variable {vs ws : List Variable} {s s' : Settings}

/-- A variable takes part in the reading when it counts for something. -/
theorem readFrom_cons (v : Variable) (h : readFrom lookup (v :: vs) s = .ok s') :
    (value? lookup v.name = none ∧ readFrom lookup vs s = .ok s') ∨
      ∃ raw s₁, value? lookup v.name = some raw ∧ v.apply raw s = .ok s₁ ∧
        readFrom lookup vs s₁ = .ok s' := by
  rw [readFrom] at h
  split at h
  · exact .inl ⟨‹_›, h⟩
  · rename_i raw hraw
    split at h
    · cases h
    · exact .inr ⟨raw, _, hraw, ‹_›, h⟩

theorem readFrom_append (h : readFrom lookup (vs ++ ws) s = .ok s') :
    ∃ s₁, readFrom lookup vs s = .ok s₁ ∧ readFrom lookup ws s₁ = .ok s' := by
  induction vs generalizing s with
  | nil => exact ⟨s, rfl, h⟩
  | cons v vs ih =>
    obtain ⟨hnone, h⟩ | ⟨raw, s₁, hraw, hs, h⟩ := readFrom_cons v h
    · obtain ⟨s₂, hvs, hws⟩ := ih h
      refine ⟨s₂, ?_, hws⟩
      rw [readFrom, show (lookup v.name).bind Text.filled? = none from hnone, hvs]
    · obtain ⟨s₂, hvs, hws⟩ := ih h
      refine ⟨s₂, ?_, hws⟩
      rw [readFrom, show (lookup v.name).bind Text.filled? = some raw from hraw]
      simp only [hs, hvs]

theorem readFrom_keeps {α : Type} {get : Settings → α} (hvs : ∀ v ∈ vs, v.Keeps get)
    (h : readFrom lookup vs s = .ok s') : get s' = get s := by
  induction vs generalizing s with
  | nil =>
    cases h
    rfl
  | cons v vs ih =>
    obtain ⟨hv, hvs⟩ := List.forall_mem_cons.1 hvs
    obtain ⟨-, h⟩ | ⟨raw, s₁, -, hs, h⟩ := readFrom_cons v h
    · exact ih hvs h
    · exact (ih hvs h).trans (hv raw s s₁ hs)

/-! ### Single settings -/

/-- The setting is what the value of the variable is read as, or the default when there is none. -/
def Decides {α β : Type} (lookup : String → Option String) (name : String)
    (read : String → String → Except SettingsError β) (set : β → α) (default setting : α) : Prop :=
  match value? lookup name with
  | none => setting = default
  | some raw => ∃ b, read name raw = .ok b ∧ setting = set b

/-- A variable decides the setting that it alone changes. -/
theorem decides_of_readFrom {α β : Type} {name : String}
    {read : String → String → Except SettingsError β} {store : β → Settings → Settings}
    {get : Settings → α} {set : β → α} (hset : ∀ b s, get (store b s) = set b)
    (hvs : ∀ v ∈ vs, v.Keeps get) (hws : ∀ v ∈ ws, v.Keeps get)
    (h : readFrom lookup (vs ++ variableOf name read store :: ws) s = .ok s') :
    Decides lookup name read set (get s) (get s') := by
  obtain ⟨s₁, hbefore, h⟩ := readFrom_append h
  have hstart := readFrom_keeps hvs hbefore
  unfold Decides
  obtain ⟨hnone, hafter⟩ | ⟨raw, s₂, hraw, hs, hafter⟩ := readFrom_cons _ h
  · rw [show value? lookup name = none from hnone]
    exact (readFrom_keeps hws hafter).trans hstart
  · rw [show value? lookup name = some raw from hraw]
    cases hread : read name raw with
    | error e => simp [variableOf, hread, Except.map] at hs
    | ok b =>
      simp only [variableOf, hread, Except.map, Except.ok.injEq] at hs
      exact ⟨b, hread, by rw [readFrom_keeps hws hafter, ← hs, hset]⟩

/-- The same for the settings as a whole, by the place of the variable among all. -/
theorem decides_of_read {α β : Type} {name : String} {read : String → String → Except SettingsError β}
    {store : β → Settings → Settings} {get : Settings → α} {set : β → α} (k : Nat)
    (hall : all = all.take k ++ variableOf name read store :: all.drop (k + 1))
    (hset : ∀ b s, get (store b s) = set b) (hkeeps : ∀ v ∈ all.eraseIdx k, v.Keeps get)
    (h : Settings.read lookup = .ok s) : Decides lookup name read set (get {}) (get s) := by
  rw [List.eraseIdx_eq_take_drop_succ] at hkeeps
  rw [Settings.read, hall] at h
  exact decides_of_readFrom hset (fun v hv => hkeeps v (List.mem_append_left _ hv))
    (fun v hv => hkeeps v (List.mem_append_right _ hv)) h

/-- What the variables decide. -/
structure Decided (lookup : String → Option String) (s : Settings) : Prop where
  queuePath : Decides lookup "SESSIONFLOW_QUEUE_PATH" anyText id ({} : Settings).queuePath s.queuePath
  pollInterval : Decides lookup "SESSIONFLOW_POLL_INTERVAL_MS" span id ({} : Settings).pollInterval
    s.pollInterval
  dispatchCapacity : Decides lookup "SESSIONFLOW_DISPATCH_CAPACITY" positive id
    ({} : Settings).dispatchCapacity s.dispatchCapacity
  firstThought : Decides lookup "SESSIONFLOW_FIRST_THOUGHT_TIMEOUT_MS" span id
    ({} : Settings).firstThought s.firstThought
  endpoint : Decides lookup "LINEAR_API_ENDPOINT" anyText id ({} : Settings).endpoint s.endpoint
  agentCommand : Decides lookup "SESSIONFLOW_AGENT_COMMAND" anyText Text.words
    ({} : Settings).agentCommand s.agentCommand
  agentTimeout : Decides lookup "SESSIONFLOW_AGENT_TIMEOUT_MS" span some none s.agentTimeout

theorem decided_of_read (h : Settings.read lookup = .ok s) : Decided lookup s where
  queuePath := decides_of_read 0 rfl (fun _ _ => rfl) (by simp [all, keeps_variableOf]) h
  pollInterval := decides_of_read 1 rfl (fun _ _ => rfl) (by simp [all, keeps_variableOf]) h
  dispatchCapacity := decides_of_read 6 rfl (fun _ _ => rfl) (by simp [all, keeps_variableOf]) h
  firstThought := decides_of_read 7 rfl (fun _ _ => rfl) (by simp [all, keeps_variableOf]) h
  endpoint := decides_of_read 8 rfl (fun _ _ => rfl) (by simp [all, keeps_variableOf]) h
  agentCommand := decides_of_read 11 rfl (fun _ _ => rfl) (by simp [all, keeps_variableOf]) h
  agentTimeout := decides_of_read 13 rfl (fun _ _ => rfl) (by simp [all, keeps_variableOf]) h

/-- Of the two variables for the token the first one that counts decides. -/
theorem token_of_read (h : Settings.read lookup = .ok s) :
    s.token = (value? lookup "LINEAR_TOKEN").or (value? lookup "LINEAR_API_TOKEN") := by
  let store (v : String) (s : Settings) : Settings := { s with token := some v }
  have h : readFrom lookup ((all.take 9 ++ [variableOf "LINEAR_API_TOKEN" anyText store]) ++
      ([] ++ variableOf "LINEAR_TOKEN" anyText store :: all.drop 11)) {} = .ok s := h
  obtain ⟨s₁, hfirst, hlast⟩ := readFrom_append h
  have hsecond : Decides lookup "LINEAR_API_TOKEN" anyText some ({} : Settings).token s₁.token :=
    decides_of_readFrom (fun _ _ => rfl) (by simp [all, keeps_variableOf]) (by simp) hfirst
  have hdecides : Decides lookup "LINEAR_TOKEN" anyText some s₁.token s.token :=
    decides_of_readFrom (fun _ _ => rfl) (by simp) (by simp [all, keeps_variableOf]) hlast
  unfold Decides at hsecond hdecides
  cases hone : value? lookup "LINEAR_TOKEN" with
  | none =>
    rw [hone] at hdecides
    rw [hdecides]
    cases hother : value? lookup "LINEAR_API_TOKEN" with
    | none =>
      rw [hother] at hsecond
      exact hsecond
    | some raw => simpa [hother, anyText] using hsecond
  | some raw => simpa [hone, anyText] using hdecides

/-! ### What the parts ask of their settings -/

section

variable {α β : Type} {name : String} {read : String → String → Except SettingsError β} {set : β → α}
  {default setting : α}

/-- A setting has what the default has and every value that is read. -/
theorem Decides.induction {P : α → Prop} (h : Decides lookup name read set default setting)
    (hdefault : P default)
    (hread : ∀ raw b, Text.filled? raw = some raw → read name raw = .ok b → P (set b)) : P setting := by
  unfold Decides at h
  cases hraw : value? lookup name with
  | none =>
    rw [hraw] at h
    rwa [h]
  | some raw =>
    rw [hraw] at h
    obtain ⟨b, hb, rfl⟩ := h
    exact hread raw b (filled?_value? hraw) hb

end

theorem positive_eq_ok {name raw : String} {n : Nat} (h : positive name raw = .ok n) : 1 ≤ n := by
  unfold positive at h
  split at h
  · cases h
  · split_ifs at h with hzero
    cases h
    have hne : n ≠ 0 := by simpa using hzero
    omega

theorem span_eq_ok {name raw : String} {d : Span} (h : span name raw = .ok d) : d.isZero = false := by
  unfold span at h
  cases hn : positive name raw with
  | error e => simp [hn, Except.map] at h
  | ok n =>
    have hpositive := positive_eq_ok hn
    simp only [hn, Except.map, Except.ok.injEq] at h
    rw [← h, Span.isZero, Span.ofMillis, beq_eq_false_iff_ne]
    simp only [ne_eq, Nat.mul_eq_zero]
    omega

end Settings

/-- A worker with a queue and an interval starts from the saved offset, unless that cannot be loaded. -/
theorem Worker.trace_start {config : WorkerConfig} (hpath : config.queuePath.isEmpty = false)
    (hinterval : config.pollInterval.isZero = false) {log : List (Sigma WorkerAnswer)}
    {r : Except WorkerError Worker} (h : Script.Trace (Worker.start config) log r) :
    (∃ offset, log = [⟨.loadCursor, Except.ok offset⟩] ∧ r = .ok { config, offset }) ∨
      ∃ e, log = [⟨.loadCursor, Except.error e⟩] ∧ r = .error (.checkpoint e) := by
  rw [Worker.start, hpath, hinterval] at h
  cases h with
  | ask answer rest =>
    obtain ⟨rfl, rfl⟩ := Script.trace_done_iff.1 rest
    change Except CursorError Nat at answer
    cases answer with
    | ok offset => exact .inl ⟨offset, rfl, rfl⟩
    | error e => exact .inr ⟨e, rfl, rfl⟩

/-- A client takes filled texts as they are. -/
theorem Tracker.Client.of?_filled {endpoint token : String}
    (hendpoint : Text.filled? endpoint = some endpoint) (htoken : Text.filled? token = some token) :
    Tracker.Client.of? endpoint token = .ok { endpoint, token } := by
  simp only [Tracker.Client.of?, hendpoint, htoken]

/-- The runner of the words of a command runs the first of them with the others. -/
theorem CommandRunner.of?_words {command : String} (h : Text.isBlankText command = false) :
    ∃ runner, CommandRunner.of? (Text.words command) = .ok runner ∧
      runner.program = Text.firstWord command ∧
      runner.program :: runner.arguments = Text.words command := by
  have hkeep : (Text.words command).filterMap Text.filled? = Text.words command := by
    have hword : ∀ w ∈ Text.words command, Text.filled? w = some w := fun w hw =>
      Text.filled?_of_mem_words hw
    generalize Text.words command = words at hword
    induction words with
    | nil => rfl
    | cons w words ih =>
      obtain ⟨hw, hword⟩ := List.forall_mem_cons.1 hword
      rw [List.filterMap_cons_some hw, ih hword]
  have hfirst := Text.head?_words h
  cases hwords : Text.words command with
  | nil => simp [hwords] at hfirst
  | cons program arguments =>
    rw [hwords] at hkeep hfirst
    refine ⟨{ program, arguments }, ?_, Option.some.inj hfirst, rfl⟩
    rw [CommandRunner.of?, hkeep]

namespace Settings

variable {lookup : String → Option String} {s : Settings}

/-- Every part of the service can be made of the settings, and gets them as they are. -/
structure IsUsable (lookup : String → Option String) (s : Settings) : Prop where
  /-- The queue worker refuses to start only when the saved offset cannot be loaded. -/
  worker : ∀ log r, Script.Trace (Worker.start s.workerConfig) log r →
    (∃ offset, log = [⟨.loadCursor, Except.ok offset⟩] ∧
      r = .ok { config := s.workerConfig, offset }) ∨
    ∃ e, log = [⟨.loadCursor, Except.error e⟩] ∧ r = .error (.checkpoint e)
  /-- The dispatcher has the capacity that is asked for, which is at least one. -/
  capacity : 1 ≤ s.dispatchCapacity ∧ s.dispatcher.capacity = s.dispatchCapacity
  /-- The deadline is the one that is set; it is never zero, which would stand for the default. -/
  deadline : s.firstThought.isZero = false ∧ s.deadlineConfig.deadline = s.firstThought
  /-- There is no access to the tracker just when both variables for the token are unset or blank. -/
  noAccess : (∃ e, s.trackerAccess = .error e) ↔
    ∀ name ∈ ["LINEAR_TOKEN", "LINEAR_API_TOKEN"], ∀ raw ∈ lookup name, Text.isBlankText raw = true
  /-- With access there is a client, which has the endpoint and the token unchanged. -/
  client : ∀ endpoint token, s.trackerAccess = .ok (endpoint, token) →
    endpoint = s.endpoint ∧ Tracker.Client.of? endpoint token = .ok { endpoint, token }
  /-- There is a runner for the agent. It runs the first word of the command with the others. -/
  runner : ∃ runner, CommandRunner.of? s.agentCommand = .ok runner ∧
    runner.program =
      Text.firstWord ((value? lookup "SESSIONFLOW_AGENT_COMMAND").getD "opencode run") ∧
    runner.program :: runner.arguments = s.agentCommand
  /-- A limit for the agent is never zero, which would stand for no limit. -/
  limit : ∀ limit ∈ s.agentTimeout, limit.isZero = false ∧
    ∀ runner : CommandRunner, (runner.withTimeout limit).timeout = some limit

/-- The words of the command that is set, or of the default one. -/
theorem Decided.agentCommand_eq (h : Decided lookup s) :
    s.agentCommand = Text.words ((value? lookup "SESSIONFLOW_AGENT_COMMAND").getD "opencode run") ∧
      Text.isBlankText ((value? lookup "SESSIONFLOW_AGENT_COMMAND").getD "opencode run") = false := by
  have hcommand := h.agentCommand
  unfold Decides at hcommand
  cases hraw : value? lookup "SESSIONFLOW_AGENT_COMMAND" with
  | none =>
    rw [hraw] at hcommand
    exact ⟨hcommand.trans (by decide +kernel), by decide +kernel⟩
  | some raw =>
    rw [hraw] at hcommand
    obtain ⟨command, hread, hwords⟩ := hcommand
    cases hread
    exact ⟨hwords, Text.isBlankText_of_filled? (filled?_value? hraw)⟩

/-- Access to the tracker fails when neither variable for the token counts. -/
theorem trackerAccess_error_iff (h : Settings.read lookup = .ok s) :
    (∃ e, s.trackerAccess = .error e) ↔
      ∀ name ∈ ["LINEAR_TOKEN", "LINEAR_API_TOKEN"], ∀ raw ∈ lookup name, Text.isBlankText raw = true := by
  simp only [List.forall_mem_cons, List.not_mem_nil, false_imp_iff, implies_true, and_true,
    ← value?_eq_none, trackerAccess, token_of_read h]
  cases value? lookup "LINEAR_TOKEN" <;> cases value? lookup "LINEAR_API_TOKEN" <;> simp

/-- Otherwise it is the endpoint that is set and a token that is filled. -/
theorem trackerAccess_eq_ok (h : Settings.read lookup = .ok s) {endpoint token : String}
    (haccess : s.trackerAccess = .ok (endpoint, token)) :
    endpoint = s.endpoint ∧ Text.filled? token = some token := by
  unfold trackerAccess at haccess
  split at haccess
  · cases haccess
  · rename_i _ hsome
    cases haccess
    rw [token_of_read h, Option.or_eq_some_iff] at hsome
    obtain hvalue | ⟨-, hvalue⟩ := hsome <;> exact ⟨rfl, filled?_value? hvalue⟩

/-- **Settings that are accepted can be used.** Whatever the variables hold, every part of the service
can be made of settings that are read, and nothing in them is replaced by a default. -/
theorem isUsable_of_read (h : Settings.read lookup = .ok s) : IsUsable lookup s := by
  have hdecided := decided_of_read h
  have hpath : s.queuePath.isEmpty = false :=
    hdecided.queuePath.induction (P := fun path => path.isEmpty = false) (by decide)
      fun raw b hraw hb => by
        cases hb
        exact Text.isEmpty_of_filled? hraw
  have hinterval : s.pollInterval.isZero = false :=
    hdecided.pollInterval.induction (P := fun d => d.isZero = false) (by decide)
      fun raw b _ hb => span_eq_ok hb
  have hcapacity : 1 ≤ s.dispatchCapacity :=
    hdecided.dispatchCapacity.induction (P := fun n => 1 ≤ n) (by decide)
      fun raw b _ hb => positive_eq_ok hb
  have hdeadline : s.firstThought.isZero = false :=
    hdecided.firstThought.induction (P := fun d => d.isZero = false) (by decide)
      fun raw b _ hb => span_eq_ok hb
  have hendpoint : Text.filled? s.endpoint = some s.endpoint :=
    hdecided.endpoint.induction (P := fun t => Text.filled? t = some t) (by decide +kernel)
      fun raw b hraw hb => by
        cases hb
        exact hraw
  have hlimit : ∀ limit ∈ s.agentTimeout, limit.isZero = false :=
    hdecided.agentTimeout.induction (P := fun t => ∀ limit ∈ t, limit.isZero = false) (by simp)
      fun raw b _ hb => by simpa using span_eq_ok hb
  obtain ⟨hcommand, hblank⟩ := hdecided.agentCommand_eq
  refine
    { worker := fun log r => Worker.trace_start hpath hinterval
      capacity := ⟨hcapacity, ?capacity⟩
      deadline := ⟨hdeadline, ?deadline⟩
      noAccess := trackerAccess_error_iff h
      client := ?client
      runner := ?runner
      limit := ?limit }
  case capacity => simp [dispatcher, Dispatcher.ofCapacity, hcapacity]
  case deadline => simp [deadlineConfig, DeadlineConfig.withDeadline, hdeadline]
  case client =>
    intro endpoint token haccess
    obtain ⟨rfl, htoken⟩ := trackerAccess_eq_ok h haccess
    exact ⟨rfl, Tracker.Client.of?_filled hendpoint htoken⟩
  case runner =>
    rw [hcommand]
    exact CommandRunner.of?_words hblank
  case limit =>
    intro limit hmem
    have hne := hlimit limit hmem
    exact ⟨hne, fun runner => by simp [CommandRunner.withTimeout, hne]⟩

/-- Variables with white space of all kinds: a command behind an em space and with a no-break space in
it, a token that is blank and another one that is not, a limit with a plus sign. -/
def spacedOut (name : String) : Option String :=
  match name with
  | "SESSIONFLOW_AGENT_COMMAND" => some "\u2003codex\u00a0exec\n"
  | "LINEAR_TOKEN" => some "\u3000"
  | "LINEAR_API_TOKEN" => some " lin "
  | "SESSIONFLOW_AGENT_TIMEOUT_MS" => some "+7"
  | _ => none

theorem isUsable_of_read_spacedOut :
    ∃ s, Settings.read spacedOut = .ok s ∧ s.agentCommand = ["codex", "exec"] ∧
      s.token = some "lin" ∧ s.agentTimeout = some (.ofMillis 7) ∧ IsUsable spacedOut s := by
  have hread : Settings.read spacedOut = .ok
      { agentCommand := ["codex", "exec"], token := some "lin", agentTimeout := some (.ofMillis 7) } := by
    decide +kernel
  exact ⟨_, hread, rfl, rfl, rfl, isUsable_of_read hread⟩

end Settings
end AgentRelay
