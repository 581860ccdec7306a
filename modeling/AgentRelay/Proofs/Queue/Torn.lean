import AgentRelay.Proofs.Job.Line
import AgentRelay.Proofs.Queue.Append
import AgentRelay.Proofs.Queue.Lines

/-!
# Appending behind a torn line

An append that was cut short leaves a queue file that does not end in a line feed. The next job that is
kept goes on in the same line: the two make one record, and a worker cannot read it as either of them.
The records are those that the file held before and the job's own line just when the file did end in a
line feed.

* `records` are the complete lines of a file, `torn` is what stands behind the last of them. They are
  what a worker finds (`hasLine_iff`), from any line on (`records_drop_append`).
* `Queue.IsApart` is an append that merges with nothing, `Queue.append_isApart_iff` says when there is one.
-/

namespace AgentRelay

open Json

/-- The complete lines of a file, each with its line feed, and what stands behind the last of them. -/
def cutLines : Bytes → List Bytes × Bytes
  | [] => ([], [])
  | x :: b =>
    let (lines, rest) := cutLines b
    if x = 10 then ([10] :: lines, rest)
    else match lines with
      | [] => ([], x :: rest)
      | line :: lines => ((x :: line) :: lines, rest)

/-- The complete lines of a file. -/
def records (b : Bytes) : List Bytes := (cutLines b).1

/-- What stands behind the last complete line. -/
def torn (b : Bytes) : Bytes := (cutLines b).2

/-! ### Cutting a file -/

@[simp] theorem records_nil : records [] = [] := rfl

@[simp] theorem torn_nil : torn [] = [] := rfl

@[simp] theorem records_feed (b : Bytes) : records (10 :: b) = [10] :: records b := rfl

@[simp] theorem torn_feed (b : Bytes) : torn (10 :: b) = torn b := rfl

theorem records_cons {x : UInt8} (hx : x ≠ 10) (b : Bytes) :
    records (x :: b) = match records b with
      | [] => []
      | line :: lines => (x :: line) :: lines := by
  rw [records, cutLines, records]
  rcases cutLines b with ⟨_ | ⟨line, lines⟩, rest⟩ <;> simp [hx]

theorem torn_cons {x : UInt8} (hx : x ≠ 10) (b : Bytes) :
    torn (x :: b) = if records b = [] then x :: torn b else torn b := by
  rw [torn, cutLines, records, torn]
  rcases cutLines b with ⟨_ | ⟨line, lines⟩, rest⟩ <;> simp [hx]

/-- What is appended goes on where the file was torn. -/
theorem cut_append (a b : Bytes) :
    records (a ++ b) = records a ++ records (torn a ++ b) ∧ torn (a ++ b) = torn (torn a ++ b) := by
  induction a with
  | nil => simp
  | cons x a ih =>
    obtain ⟨hrecords, htorn⟩ := ih
    by_cases hx : x = 10
    · subst hx
      simp [hrecords, htorn]
    · rw [List.cons_append, records_cons hx, records_cons hx, torn_cons hx, torn_cons hx, hrecords, htorn]
      -- an unfinished line has one more byte in front, a complete one is left alone
      cases hlines : records a with
      | nil => simp [records_cons hx, torn_cons hx]
      | cons line lines => simp

theorem records_append (a b : Bytes) : records (a ++ b) = records a ++ records (torn a ++ b) :=
  (cut_append a b).1

theorem torn_append (a b : Bytes) : torn (a ++ b) = torn (torn a ++ b) := (cut_append a b).2

theorem flatten_records (b : Bytes) : (records b).flatten ++ torn b = b := by
  induction b with
  | nil => rfl
  | cons x b ih =>
    by_cases hx : x = 10
    · subst hx
      simpa using ih
    · rw [records_cons hx, torn_cons hx]
      cases hlines : records b with
      | nil => simpa [hlines] using ih
      | cons line lines => simpa [hlines] using ih

theorem isOneLine_torn (b : Bytes) : IsOneLine (torn b) := by
  induction b with
  | nil => simp
  | cons x b ih =>
    by_cases hx : x = 10
    · subst hx
      simpa using ih
    · rw [torn_cons hx]
      split
      · exact isOneLine_cons.2 ⟨hx, ih⟩
      · exact ih

theorem cut_line {a : Bytes} (h : IsOneLine a) (rest : Bytes) :
    records (a ++ 10 :: rest) = (a ++ [10]) :: records rest ∧ torn (a ++ 10 :: rest) = torn rest := by
  induction a with
  | nil => simp
  | cons x a ih =>
    obtain ⟨hx, ha⟩ := isOneLine_cons.1 h
    obtain ⟨hrecords, htorn⟩ := ih ha
    simp [records_cons hx, torn_cons hx, hrecords, htorn]

/-- A record holds one line feed, at its end. -/
theorem exists_of_mem_records {b line : Bytes} (h : line ∈ records b) :
    ∃ a, IsOneLine a ∧ line = a ++ [10] := by
  induction b generalizing line with
  | nil => simp at h
  | cons x b ih =>
    by_cases hx : x = 10
    · subst hx
      rcases List.mem_cons.1 h with rfl | h
      · exact ⟨[], isOneLine_nil, rfl⟩
      · exact ih h
    · rw [records_cons hx] at h
      cases hlines : records b with
      | nil => simp [hlines] at h
      | cons first lines =>
        simp only [hlines, List.mem_cons] at h ih
        rcases h with rfl | h
        · obtain ⟨a, ha, rfl⟩ := ih (.inl rfl)
          exact ⟨x :: a, isOneLine_cons.2 ⟨hx, ha⟩, rfl⟩
        · exact ih (.inr h)

/-- The first line of a file with records is the first of them. -/
theorem firstLine_of_records {b line : Bytes} {lines : List Bytes} (h : records b = line :: lines) :
    firstLine b = line ∧ line.getLast? = some 10 ∧ records (b.drop line.length) = lines := by
  obtain ⟨a, ha, rfl⟩ := exists_of_mem_records (h ▸ List.mem_cons_self)
  have hcut := flatten_records b
  rw [h, List.flatten_cons, List.append_assoc, List.append_assoc, List.singleton_append] at hcut
  rw [← hcut] at h ⊢
  rw [(cut_line ha _).1] at h
  refine ⟨firstLine_append ha _, by simp, ?_⟩
  simpa using h

/-! ### From a line on -/

variable {b line : Bytes} {offset : Nat}

theorem StartsLine.le_length (h : StartsLine b offset) : offset ≤ b.length := by
  rcases h with rfl | h
  · exact Nat.zero_le _
  · obtain ⟨hlt, -⟩ := List.getElem?_eq_some_iff.1 h
    omega

/-- In front of a line nothing is torn. -/
theorem torn_take (h : StartsLine b offset) : torn (b.take offset) = [] := by
  rcases h with rfl | hfeed
  · simp
  · cases offset with
    | zero => simp
    | succ n =>
      have hlast : b.take (n + 1) = b.take n ++ [10] := by
        rw [List.take_add_one, show b[n]? = some 10 from hfeed]
        rfl
      rw [hlast, torn_append, (cut_line (isOneLine_torn _) []).2, torn_nil]

theorem torn_drop (h : StartsLine b offset) : torn (b.drop offset) = torn b := by
  conv_rhs => rw [← List.take_append_drop offset b, torn_append, torn_take h, List.nil_append]

/-- The records from a line on, when the file has grown. -/
theorem records_drop_append (h : StartsLine b offset) (more : Bytes) :
    records ((b ++ more).drop offset) = records (b.drop offset) ++ records (torn b ++ more) := by
  rw [List.drop_append_of_le_length h.le_length, records_append, torn_drop h]

/-- A worker that stands in front of a line finds the first record there, and the others behind it. -/
theorem HasLine.records_eq (h : HasLine b offset line) :
    records (b.drop offset) = line :: records (b.drop (offset + line.length)) := by
  obtain ⟨a, rest, ha, rfl, hdrop⟩ := h.exists_eq
  have hnext : b.drop (offset + (a ++ [10]).length) = rest := by
    rw [← List.drop_drop, hdrop]
    simp
  rw [hnext, hdrop, (cut_line ha rest).1]

/-- What a worker finds at a line is the first record from there on. -/
theorem hasLine_iff : HasLine b offset line ↔
    StartsLine b offset ∧ ∃ lines, records (b.drop offset) = line :: lines := by
  constructor
  · intro h
    exact ⟨h.starts, _, h.records_eq⟩
  · rintro ⟨hstarts, lines, h⟩
    obtain ⟨hfirst, hcomplete, -⟩ := firstLine_of_records h
    exact ⟨hstarts, hfirst, hcomplete⟩

/-! ### An append -/

namespace Queue

variable {old : Bytes} {j : Job}

/-- An append merges with nothing: what was torn has become a record of its own, and the line of the job
is the record behind it. -/
def IsApart (old : Bytes) (j : Job) (new : Bytes) : Prop :=
  records new = records old ++ (if torn old = [] then [] else [torn old ++ [10]]) ++ [j.line]

/-- The line of a job goes on in the line that was torn. -/
theorem records_torn_line (h : IsOneLine j.json) (old : Bytes) :
    records (torn old ++ j.line) = [torn old ++ j.line] := by
  have hline := (cut_line (isOneLine_append.2 ⟨isOneLine_torn old, h⟩) []).1
  simpa [Job.line] using hline

theorem isApart_append_iff : IsApart old j (old ++ j.line) ↔ torn old = [] ∧ IsOneLine j.json := by
  have happend : IsApart old j (old ++ j.line) ↔
      records (torn old ++ j.line) = (if torn old = [] then [] else [torn old ++ [10]]) ++ [j.line] := by
    rw [IsApart, records_append, List.append_assoc, List.append_cancel_left_eq]
  rw [happend]
  constructor
  · intro hrecords
    by_cases htorn : torn old = []
    · refine ⟨htorn, ?_⟩
      rw [if_pos htorn, htorn] at hrecords
      have hmem : j.line ∈ records ([] ++ j.line) := by
        rw [hrecords]
        exact List.mem_singleton_self _
      obtain ⟨a, ha, hline⟩ := exists_of_mem_records hmem
      rwa [List.append_cancel_right hline]
    -- a record of its own would need one more line feed than was written
    · have hflat := congrArg List.length (flatten_records (torn old ++ j.line))
      rw [hrecords, if_neg htorn] at hflat
      simp at hflat
      omega
  · rintro ⟨htorn, hline⟩
    rw [records_torn_line hline, if_pos htorn, htorn]
    rfl

variable {path : String} {d d' : Disk}

/-- What has become of the content `old` of a queue file when a job was kept there. -/
structure GoesOn (old : Bytes) (j : Job) (new : Bytes) : Prop where
  isApart_iff : IsApart old j new ↔ torn old = [] ∧ IsOneLine j.json
  /-- From any line on there is one more record: what was torn, with the line of the job behind it. -/
  records_eq : ∀ offset, StartsLine old offset → IsOneLine j.json →
    records (new.drop offset) = records (old.drop offset) ++ [torn old ++ j.line]
  /-- A job that is apart is read from any line on. -/
  readable : ∀ offset, StartsLine old offset → IsApart old j new → j.IsKept →
    ∃ line ∈ records (new.drop offset), Job.ofLine line = .ok j

/-- What stands in a queue file when a job has been kept there. Its line goes on in what was torn, and it
is apart just when nothing was: then a worker that starts at any line of the old file reads the job. -/
theorem append_isApart_iff (h : appendTo path false j d = (.ok (), d')) :
    ∃ old new, old = (d.withParent path).content path ∧ d'.read path = .ok new ∧ GoesOn old j new := by
  refine ⟨_, _, rfl, read_appendTo h, isApart_append_iff, fun offset hstart hline => ?_, ?_⟩
  · rw [records_drop_append hstart, records_torn_line hline]
  · intro offset hstart happart hkept
    obtain ⟨htorn, hline⟩ := isApart_append_iff.1 happart
    refine ⟨j.line, ?_, hkept.ofLine_line⟩
    rw [records_drop_append hstart, records_torn_line hline, htorn]
    simp

/-- A job of an event that says nothing. -/
def errand : Job := { id := "a", contractVersion := Job.currentVersion }

theorem isKept_errand : errand.IsKept := ⟨rfl, by decide +kernel, SessionEvent.isNamed_default⟩

theorem isOneLine_errand : IsOneLine errand.json := Job.isOneLine_json (by unfold IsOneLine; decide +kernel)

/-- Behind a line that is finished the errand is apart, and it is read. -/
theorem append_isApart_iff_finished :
    ∃ d' new, appendTo "q" false errand ⟨[("/q", .file [10])]⟩ = (.ok (), d') ∧
      d'.read "q" = .ok new ∧ IsApart [10] errand new ∧ records new = [[10], errand.line] ∧
      ∃ line ∈ records new, Job.ofLine line = .ok errand := by
  obtain ⟨d', hkept⟩ : ∃ d', appendTo "q" false errand ⟨[("/q", .file [10])]⟩ = (.ok (), d') := ⟨_, rfl⟩
  obtain ⟨old, new, hold, hread, hgoes⟩ := append_isApart_iff hkept
  obtain rfl : old = [10] := hold
  have happart : IsApart [10] errand new := hgoes.isApart_iff.2 ⟨rfl, isOneLine_errand⟩
  exact ⟨d', new, hkept, hread, happart, hgoes.records_eq 0 (.inl rfl) isOneLine_errand,
    hgoes.readable 0 (.inl rfl) happart isKept_errand⟩

/-- Behind a line that was torn it is not: the errand is kept, and no record of the file is the errand. -/
theorem not_append_isApart :
    ∃ d' new, appendTo "q" false errand ⟨[("/q", .file (Bytes.utf8 "\x7b\"id\":"))]⟩ = (.ok (), d') ∧
      d'.read "q" = .ok new ∧ ¬ IsApart (Bytes.utf8 "\x7b\"id\":") errand new ∧
      ∀ line ∈ records new, Job.ofLine line ≠ .ok errand := by
  refine ⟨_, _, rfl, rfl, ?_, ?_⟩
  · unfold IsApart
    decide +kernel
  · decide +kernel

end Queue
end AgentRelay
