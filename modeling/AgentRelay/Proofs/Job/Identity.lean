import AgentRelay.Proofs.Job.Line
import AgentRelay.Proofs.Text.Trim
import Mathlib.Data.List.Infix

/-!
# What an idempotency key tells apart

The key of a delivery is written from its session, its action and, for a prompt, what tells prompts
apart. Deliveries that agree in these parts have one key. The parts are joined by colons, which ids may
hold as well, so the key gives them back only when no part can be mistaken for the next one.

* `Identity.work` are the parts, `Identity.key_step_inj` says that the keys of accepted events differ just
  when their session steps do.
* `Identity.eq_or_extends` is where the session of a step ends, `Source.eq_of_text` what its prompt says.
* `Identity.key_identifies` puts them together.
* `Identity.not_key_identifies` are deliveries that are mistaken for each other.
-/

namespace AgentRelay.Identity

/-- What tells a prompt from the other prompts of its session. -/
inductive Source
  | activity (id : String)
  | event (id : String)
  | fingerprint (digits : String)
  deriving DecidableEq

namespace Source

/-- How it is written in a session step. -/
def text : Source → String
  | activity id => id
  | event id => "event:" ++ id
  | fingerprint digits => "fingerprint:" ++ digits

/-- The id of an activity that begins as the other source is written. -/
def Resembles : Source → Source → Prop
  | activity id, event _ => "event:".toList <+: id.toList
  | activity id, fingerprint _ => "fingerprint:".toList <+: id.toList
  | _, _ => False

/-- Sources that are written alike are the same, unless one resembles the other. -/
theorem eq_of_text {s t : Source} (hs : ¬ s.Resembles t) (ht : ¬ t.Resembles s) (h : s.text = t.text) :
    s = t := by
  have hchars := congrArg String.toList h
  cases s <;> cases t <;> simp only [text, String.toList_append] at h hchars
  case activity.activity => rw [h]
  case event.event => rw [String.toList_inj.1 (List.append_cancel_left hchars)]
  case fingerprint.fingerprint => rw [String.toList_inj.1 (List.append_cancel_left hchars)]
  case activity.event => exact absurd ⟨_, hchars.symm⟩ hs
  case activity.fingerprint => exact absurd ⟨_, hchars.symm⟩ hs
  case event.activity => exact absurd ⟨_, hchars⟩ ht
  case fingerprint.activity => exact absurd ⟨_, hchars⟩ ht
  case event.fingerprint => simp at hchars
  case fingerprint.event => simp at hchars

end Source

/-- The activity of a prompt, or else its event, or else the fingerprint of its payload. -/
def source (e : SessionEvent) (payload : Bytes) : Source :=
  match e.activity.bind fun a => Text.filled? a.id with
  | some id => .activity id
  | none =>
    match Text.filled? e.id with
    | some id => .event id
    | none => .fingerprint (fingerprint payload)

theorem text_source (e : SessionEvent) (payload : Bytes) : (source e payload).text = prompt e payload := by
  unfold source prompt
  cases e.activity.bind fun a => Text.filled? a.id with
  | some id => rfl
  | none =>
    unfold event
    cases Text.filled? e.id <;> rfl

/-- The work that a delivery asks for. -/
structure Work where
  session : String
  action : EventAction
  /-- For a prompt alone. -/
  source : Option Source
  deriving DecidableEq

/-- The work of an event with its payload. -/
def work (e : SessionEvent) (payload : Bytes) : Work where
  session := session e payload
  action := e.action
  source := if e.isPrompted then some (source e payload) else none

/-! ### Session steps -/

/-- What follows the session in the step of a known action. -/
def ending : Option Source → String
  | none => ":created"
  | some s => ":prompted:" ++ s.text

variable {e e' : SessionEvent} {payload payload' : Bytes}

theorem isPrompted_of_isSome (h : (work e payload).source.isSome) : e.isPrompted := by
  unfold work at h
  dsimp only at h
  split at h
  · assumption
  · contradiction

/-- The action of accepted events follows from the end of their step. -/
theorem action_eq (h : e.action.isKnown = true) (payload : Bytes) :
    e.action = if (work e payload).source.isSome then .known .prompted else .known .created := by
  match haction : e.action with
  | .known .created | .known .prompted => simp [work, SessionEvent.isPrompted, haction]
  | .unknown name => simp [haction, WireName.isKnown] at h

theorem step_eq (h : e.action.isKnown = true) (payload : Bytes) :
    step e payload = session e payload ++ ending (work e payload).source := by
  have haction := action_eq h payload
  unfold step
  rw [haction]
  cases hsource : (work e payload).source with
  | none => rfl
  | some s =>
    have hs : s = source e payload := by
      simp only [work] at hsource
      split at hsource <;> simp_all
    simp only [Option.isSome_some, ↓reduceIte, ending, hs, text_source, String.append_assoc]

/-! ### Steps are trimmed -/

theorem isBlank_hexDigit {n : Nat} (h : n < 16) : Text.isBlank (Bytes.hexDigit n) = false := by
  have hall : ∀ n < 16, Text.isBlank (Bytes.hexDigit n) = false := by decide
  exact hall n h

theorem isBlank_fingerprint (payload : Bytes) :
    ∀ c ∈ (fingerprint payload).toList, Text.isBlank c = false := by
  intro c hc
  rw [fingerprint, Bytes.toHex, String.toList_ofList] at hc
  obtain ⟨b, -, hb⟩ := List.mem_flatMap.1 hc
  have hbyte := b.toNat_lt
  simp only [List.mem_cons, List.not_mem_nil, or_false] at hb
  rcases hb with rfl | rfl
  · exact isBlank_hexDigit (by omega)
  · exact isBlank_hexDigit (by omega)

/-- A text that does not start in white space. -/
theorem head?_session (e : SessionEvent) (payload : Bytes) :
    ∃ c cs, (session e payload).toList = c :: cs ∧ Text.isBlank c = false := by
  unfold session
  cases h : Text.filled? e.session.id with
  | none => exact ⟨'s', _, by rw [Option.getD_none, String.toList_append]; rfl, by decide⟩
  | some id => exact (Text.filled?_eq_some h).2

theorem getLast?_text_source (e : SessionEvent) (payload : Bytes) :
    ∀ c ∈ (source e payload).text.toList.getLast?, Text.isBlank c = false := by
  unfold source
  split
  · rename_i id hid
    obtain ⟨a, -, ha⟩ := Option.bind_eq_some_iff.1 hid
    rw [(Text.filled?_eq_some ha).1]
    exact Text.getLast?_trim a.id
  · split
    · rename_i id hid
      rw [(Text.filled?_eq_some hid).1]
      exact Text.getLast?_append (Text.isBlank_getLast? (c := ':') rfl (by decide))
        (Text.getLast?_trim e.id)
    · exact Text.getLast?_append (Text.isBlank_getLast? (c := ':') rfl (by decide))
        fun c hc => isBlank_fingerprint payload c (List.mem_of_getLast? hc)

theorem getLast?_ending (e : SessionEvent) (payload : Bytes) :
    ∀ c ∈ (ending (work e payload).source).toList.getLast?, Text.isBlank c = false := by
  unfold work
  dsimp only
  split
  · exact Text.getLast?_append (Text.isBlank_getLast? (c := ':') rfl (by decide))
      (getLast?_text_source e payload)
  · exact Text.isBlank_getLast? (c := 'd') rfl (by decide)

theorem trim_step (h : e.action.isKnown = true) (payload : Bytes) :
    Text.trim (step e payload) = step e payload := by
  rw [step_eq h]
  obtain ⟨c, cs, hsession, hc⟩ := head?_session e payload
  have hlast : (ending (work e payload).source).toList ≠ [] := by
    unfold ending
    split <;> simp [String.toList_append]
  refine Text.trim_eq_self ?_ ?_
  · rw [String.toList_append, hsession]
    simpa using hc
  · rw [String.toList_append, List.getLast?_append_of_ne_nil _ hlast]
    exact getLast?_ending e payload

/-- Accepted events have one key just when they have one session step. -/
theorem key_step_inj (h : e.action.isKnown = true) (h' : e'.action.isKnown = true) :
    key (step e payload) = key (step e' payload') ↔ step e payload = step e' payload' := by
  rw [key, key, trim_step h, trim_step h', String.append_right_inj]

/-! ### Where the session of a step ends -/

/-- A session id that goes on behind another one as a step of the other one does: the other id,
`:prompted`, and then nothing or a colon and more. -/
def Extends (s s' : String) : Prop := (s' ++ ":prompted:").toList <+: (s ++ ":").toList

instance (s s' : String) : Decidable (Extends s s') := inferInstanceAs (Decidable (_ <+: _))

theorem ending_eq_colon_cons (x : Option Source) : ∃ cs, (ending x).toList = ':' :: cs := by
  cases x with
  | none => exact ⟨_, rfl⟩
  | some s => exact ⟨_, by rw [ending, String.toList_append]; rfl⟩

/-- When the end of a step is the end of another one with something in front of it, it is the end of a
prompt, and that something begins like one. -/
theorem prefix_of_ending_eq {x y : Option Source} {d : List Char} (hd : d ≠ [])
    (h : (ending y).toList = d ++ (ending x).toList) : y.isSome ∧ ":prompted:".toList <+: d ++ [':'] := by
  obtain ⟨cs, hx⟩ := ending_eq_colon_cons x
  cases y with
  | none =>
    -- the end of a creation is the shortest there is
    have hshort : (ending none).toList.length ≤ (ending x).toList.length := by
      cases x <;> simp [ending]
    have hpos := List.length_pos_iff.2 hd
    rw [h, List.length_append] at hshort
    omega
  | some s =>
    refine ⟨rfl, ?_⟩
    rw [ending, String.toList_append, hx] at h
    have hleft : ":prompted:".toList <+: ":prompted:".toList ++ s.text.toList := List.prefix_append _ _
    have hright : d ++ [':'] <+: ":prompted:".toList ++ s.text.toList := ⟨cs, by rw [h]; simp⟩
    rcases List.prefix_or_prefix_of_prefix hleft hright with hprefix | hprefix
    · exact hprefix
    -- only the last colon of the prompt has something in front of the colon
    · have hinits : ∀ l ∈ ":prompted:".toList.inits, 2 ≤ l.length → l.getLast? = some ':' →
          l = ":prompted:".toList := by decide
      have hpos := List.length_pos_iff.2 hd
      rw [hinits _ ((List.mem_inits _ _).2 hprefix) (by simp; omega) (by simp)]

/-- Two steps that are written alike are steps of one session, unless one session extends the session of
a prompt. -/
theorem eq_or_extends {s s' : String} {x y : Option Source} (h : s ++ ending x = s' ++ ending y) :
    s = s' ∨ (y.isSome ∧ Extends s s') ∨ (x.isSome ∧ Extends s' s) := by
  have hchars := congrArg String.toList h
  simp only [String.toList_append] at hchars
  have hextends : ∀ {t t' : String} {d : List Char} {x y : Option Source}, t.toList = t'.toList ++ d →
      (ending y).toList = d ++ (ending x).toList → t = t' ∨ (y.isSome ∧ Extends t t') := by
    intro t t' d x y ht hd
    by_cases hnil : d = []
    · exact .inl (String.toList_inj.1 (by rw [ht, hnil, List.append_nil]))
    · right
      rw [Extends, String.toList_append, String.toList_append, ht, List.append_assoc,
        List.prefix_append_right_inj]
      exact prefix_of_ending_eq hnil hd
  rcases List.append_eq_append_iff.1 hchars with ⟨d, hs, hd⟩ | ⟨d, hs, hd⟩
  · exact (hextends hs hd).imp Eq.symm .inr
  · exact (hextends hs hd).imp_right .inl

/-- Within a session the end of a step tells its source. -/
theorem source_eq_of_ending {x y : Option Source}
    (hxy : ∀ s ∈ x, ∀ t ∈ y, ¬ s.Resembles t ∧ ¬ t.Resembles s) (h : ending x = ending y) :
    x = y := by
  have hchars := congrArg String.toList h
  cases x with
  | none =>
    cases y with
    | none => rfl
    | some t => simp [ending] at hchars
  | some s =>
    cases y with
    | none => simp [ending] at hchars
    | some t =>
      simp only [ending, String.append_right_inj] at h
      rw [Source.eq_of_text (hxy s rfl t rfl).1 (hxy s rfl t rfl).2 h]

/-! ### Deliveries -/

/-- An event that creates a session. -/
def creation (session : String) : Bytes :=
  Bytes.utf8 ("\x7b\"payloadVersion\":1,\"action\":\"created\",\"agentSession\":\x7b\"id\":\"" ++ session ++
    "\",\"state\":\"active\"\x7d\x7d")

/-- An event that prompts a session. -/
def prompting (id session activity : String) : Bytes :=
  Bytes.utf8 ("\x7b\"id\":\"" ++ id ++
    "\",\"payloadVersion\":1,\"action\":\"prompted\",\"agentSession\":\x7b\"id\":\"" ++ session ++
    "\",\"state\":\"active\"\x7d,\"agentActivity\":\x7b\"id\":\"" ++ activity ++
    "\",\"content\":\x7b\"type\":\"prompt\",\"body\":\"go\"\x7d\x7d\x7d")

theorem exists_decode {b : Bytes} {p : SessionEvent → Prop} [DecidablePred p]
    (h : (SessionEvent.decode b).toOption.any (fun e => decide (p e)) = true) :
    ∃ e, SessionEvent.decode b = .ok e ∧ p e := by
  obtain ⟨e, he, hp⟩ := Job.exists_of_any h
  exact ⟨e, he, of_decide_eq_true hp⟩

/-! ### Keys -/

/-- **Keys identify work.** Accepted events that ask for the same work have one key. Events that have
one key ask for the same work, when no session extends the session of a prompt and no source resembles
the other. -/
theorem key_identifies {body body' : Bytes} (he : SessionEvent.decode body = .ok e)
    (he' : SessionEvent.decode body' = .ok e') (payload payload' : Bytes) :
    (work e payload = work e' payload' → key (step e payload) = key (step e' payload')) ∧
      ((e'.isPrompted → ¬ Extends (session e payload) (session e' payload')) →
        (e.isPrompted → ¬ Extends (session e' payload') (session e payload)) →
        (∀ s ∈ (work e payload).source, ∀ t ∈ (work e' payload').source,
          ¬ s.Resembles t ∧ ¬ t.Resembles s) →
        key (step e payload) = key (step e' payload') → work e payload = work e' payload') := by
  have hknown := (SessionEvent.check_eq_ok (SessionEvent.decode_eq_ok he).2).2.1
  have hknown' := (SessionEvent.check_eq_ok (SessionEvent.decode_eq_ok he').2).2.1
  rw [key_step_inj hknown hknown', step_eq hknown, step_eq hknown']
  constructor
  · intro h
    rw [h, show session e payload = session e' payload' from congrArg Work.session h]
  · intro hextends hextends' hresembles h
    have hsession : session e payload = session e' payload' := by
      rcases eq_or_extends h with h | ⟨hsome, h⟩ | ⟨hsome, h⟩
      · exact h
      · exact absurd h (hextends (isPrompted_of_isSome hsome))
      · exact absurd h (hextends' (isPrompted_of_isSome hsome))
    rw [hsession, String.append_right_inj] at h
    have hsource := source_eq_of_ending hresembles h
    have haction : e.action = e'.action := by
      rw [action_eq hknown payload, action_eq hknown' payload', hsource]
    calc work e payload = ⟨session e payload, e.action, (work e payload).source⟩ := rfl
      _ = ⟨session e' payload', e'.action, (work e' payload').source⟩ := by
        rw [hsession, haction, hsource]
      _ = work e' payload' := rfl

/-- Two prompts of a session with ids that hold colons have keys of their own. -/
theorem key_identifies_prompts :
    ∃ e e', SessionEvent.decode (prompting "" "s:1" "a:created") = .ok e ∧
      SessionEvent.decode (prompting "" "s:1" "b:created") = .ok e' ∧
      key (step e []) ≠ key (step e' []) := by
  obtain ⟨e, he, hwork⟩ := exists_decode (b := prompting "" "s:1" "a:created")
    (p := fun e => work e [] = ⟨"s:1", .known .prompted, some (.activity "a:created")⟩) (by decide +kernel)
  obtain ⟨e', he', hwork'⟩ := exists_decode (b := prompting "" "s:1" "b:created")
    (p := fun e => work e [] = ⟨"s:1", .known .prompted, some (.activity "b:created")⟩) (by decide +kernel)
  have hsession : session e [] = "s:1" := congrArg Work.session hwork
  have hsession' : session e' [] = "s:1" := congrArg Work.session hwork'
  refine ⟨e, e', he, he', fun hkey => ?_⟩
  have hsame := (key_identifies he he' [] []).2
    (fun _ => by rw [hsession, hsession']; decide) (fun _ => by rw [hsession, hsession']; decide)
    (by rw [hwork, hwork']; rintro _ ⟨⟩ _ ⟨⟩; exact ⟨id, id⟩) hkey
  rw [hwork, hwork'] at hsame
  exact absurd hsame (by decide)

/-- Keys do not tell all work apart: the creation of a session has the key of another session's prompt,
and a prompt that is known by its activity has the key of one that is known by its event. -/
theorem not_key_identifies :
    (∃ e e', SessionEvent.decode (creation "s:prompted:a") = .ok e ∧
      SessionEvent.decode (prompting "" "s" "a:created") = .ok e' ∧
      key (step e (creation "s:prompted:a")) = key (step e' (prompting "" "s" "a:created")) ∧
      work e (creation "s:prompted:a") ≠ work e' (prompting "" "s" "a:created")) ∧
    ∃ e e', SessionEvent.decode (prompting "" "s" "event:e") = .ok e ∧
      SessionEvent.decode (prompting "e" "s" "") = .ok e' ∧
      key (step e (prompting "" "s" "event:e")) = key (step e' (prompting "e" "s" "")) ∧
      work e (prompting "" "s" "event:e") ≠ work e' (prompting "e" "s" "") := by
  constructor
  · obtain ⟨e, he, hstep, hwork⟩ := exists_decode (b := creation "s:prompted:a")
      (p := fun e => step e (creation "s:prompted:a") = "s:prompted:a:created" ∧
        work e (creation "s:prompted:a") = ⟨"s:prompted:a", .known .created, none⟩) (by decide +kernel)
    obtain ⟨e', he', hstep', hwork'⟩ := exists_decode (b := prompting "" "s" "a:created")
      (p := fun e => step e (prompting "" "s" "a:created") = "s:prompted:a:created" ∧
        work e (prompting "" "s" "a:created") = ⟨"s", .known .prompted, some (.activity "a:created")⟩)
      (by decide +kernel)
    exact ⟨e, e', he, he', by rw [hstep, hstep'], by rw [hwork, hwork']; decide⟩
  · obtain ⟨e, he, hstep, hwork⟩ := exists_decode (b := prompting "" "s" "event:e")
      (p := fun e => step e (prompting "" "s" "event:e") = "s:prompted:event:e" ∧
        work e (prompting "" "s" "event:e") = ⟨"s", .known .prompted, some (.activity "event:e")⟩)
      (by decide +kernel)
    obtain ⟨e', he', hstep', hwork'⟩ := exists_decode (b := prompting "e" "s" "")
      (p := fun e => step e (prompting "e" "s" "") = "s:prompted:event:e" ∧
        work e (prompting "e" "s" "") = ⟨"s", .known .prompted, some (.event "e")⟩) (by decide +kernel)
    exact ⟨e, e', he, he', by rw [hstep, hstep'], by rw [hwork, hwork']; decide⟩

end AgentRelay.Identity
