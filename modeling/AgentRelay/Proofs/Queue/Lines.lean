import AgentRelay.Proofs.Job.OneLine
import AgentRelay.Queue.Worker

/-!
# The lines of a queue file

A queue file is cut into lines by its line feeds. What stands behind the last line feed is still being
written and is no line yet. A file that only grows keeps its lines.

* `HasLine` says that a complete line stands at an offset of a file.
* `HasLine.append` is a file that grows, `HasLine.startsLine_next` the line behind a line.
* `HasLine.next_le_of_lt` says that lines do not overlap.
-/

namespace AgentRelay

open Json

/-! ### The first line -/

theorem firstLine_append {b : Bytes} (h : IsOneLine b) (rest : Bytes) :
    firstLine (b ++ 10 :: rest) = b ++ [10] := by
  induction b with
  | nil => rfl
  | cons x b ih =>
    obtain ⟨hx, hb⟩ := isOneLine_cons.1 h
    simp [firstLine, hx, ih hb]

theorem firstLine_eq_self {b : Bytes} (h : IsOneLine b) : firstLine b = b := by
  induction b with
  | nil => rfl
  | cons x b ih =>
    obtain ⟨hx, hb⟩ := isOneLine_cons.1 h
    simp [firstLine, hx, ih hb]

theorem Job.firstLine_line {j : Job} (h : IsOneLine j.json) (rest : Bytes) :
    firstLine (j.line ++ rest) = j.line := by
  rw [line, List.append_assoc]
  exact firstLine_append h rest

/-- A first line that ends in a line feed is what stands in front of the first line feed, and it. -/
theorem exists_isOneLine {b : Bytes} (h : (firstLine b).getLast? = some 10) :
    ∃ a rest, IsOneLine a ∧ b = a ++ 10 :: rest := by
  induction b with
  | nil => simp [firstLine] at h
  | cons x b ih =>
    by_cases hx : x = 10
    · exact ⟨[], b, isOneLine_nil, by rw [hx, List.nil_append]⟩
    · have hlast : (firstLine b).getLast? = some 10 := by
        rw [firstLine, if_neg (by simpa using hx), List.getLast?_cons] at h
        cases hrest : (firstLine b).getLast? with
        | none => simp [hrest, hx] at h
        | some y => simpa [hrest] using h
      obtain ⟨a, rest, ha, rfl⟩ := ih hlast
      exact ⟨x :: a, rest, isOneLine_cons.2 ⟨hx, ha⟩, rfl⟩

/-! ### Lines -/

/-- A line starts at the start of the file and behind every line feed. -/
def StartsLine (b : Bytes) (offset : Nat) : Prop := offset = 0 ∨ b[offset - 1]? = some 10

/-- A complete line starts at the offset. -/
structure HasLine (b : Bytes) (offset : Nat) (line : Bytes) : Prop where
  starts : StartsLine b offset
  isFirst : firstLine (b.drop offset) = line
  isComplete : line.getLast? = some 10

variable {b line line' : Bytes} {offset next : Nat}

theorem StartsLine.append (h : StartsLine b offset) (more : Bytes) : StartsLine (b ++ more) offset := by
  rcases h with h | h
  · exact .inl h
  · obtain ⟨hlt, -⟩ := List.getElem?_eq_some_iff.1 h
    exact .inr (by rw [List.getElem?_append_left hlt, h])

namespace HasLine

/-- The line holds one line feed, at its end. -/
theorem exists_eq (h : HasLine b offset line) :
    ∃ a rest, IsOneLine a ∧ line = a ++ [10] ∧ b.drop offset = a ++ 10 :: rest := by
  obtain ⟨a, rest, ha, hdrop⟩ := exists_isOneLine (by rw [h.isFirst, h.isComplete])
  refine ⟨a, rest, ha, ?_, hdrop⟩
  rw [← h.isFirst, hdrop, firstLine_append ha]

theorem unique (h : HasLine b offset line) (h' : HasLine b offset line') : line = line' :=
  h.isFirst.symm.trans h'.isFirst

theorem length_pos (h : HasLine b offset line) : 0 < line.length := by
  obtain ⟨a, -, -, rfl, -⟩ := h.exists_eq
  simp

theorem next_le (h : HasLine b offset line) : offset + line.length ≤ b.length := by
  obtain ⟨a, rest, -, rfl, hdrop⟩ := h.exists_eq
  have hlength := congrArg List.length hdrop
  simp only [List.length_drop, List.length_append, List.length_cons, List.length_nil] at hlength ⊢
  omega

/-- A file that grows keeps its lines. -/
theorem append (h : HasLine b offset line) (more : Bytes) : HasLine (b ++ more) offset line := by
  obtain ⟨a, rest, ha, hline, hdrop⟩ := h.exists_eq
  refine ⟨h.starts.append more, ?_, h.isComplete⟩
  have hoffset : offset ≤ b.length := Nat.le_of_add_right_le h.next_le
  rw [List.drop_append_of_le_length hoffset, hdrop, List.append_assoc, List.cons_append,
    firstLine_append ha, hline]

/-- What a file has gained stands behind its old end. -/
theorem of_append {more : Bytes} (h : HasLine (b ++ more) offset line)
    (hnext : offset + line.length ≤ b.length) : HasLine b offset line := by
  obtain ⟨a, rest, ha, rfl, hdrop⟩ := h.exists_eq
  have hoffset : offset ≤ b.length := Nat.le_of_add_right_le hnext
  have hprefix : a ++ [10] <+: b.drop offset := by
    rw [List.drop_append_of_le_length hoffset] at hdrop
    refine List.prefix_of_prefix_length_le ⟨rest, ?_⟩ (List.prefix_append _ more)
      (by rw [List.length_drop]; omega)
    rw [hdrop, List.append_assoc, List.singleton_append]
  obtain ⟨rest', hrest'⟩ := hprefix
  refine ⟨?_, ?_, h.isComplete⟩
  · rcases h.starts with hzero | hfeed
    · exact .inl hzero
    · rw [List.length_append, List.length_singleton] at hnext
      exact .inr (by rwa [List.getElem?_append_left (by omega)] at hfeed)
  · rw [← hrest', List.append_assoc, List.singleton_append, firstLine_append ha]

/-- A line starts behind a line. -/
theorem startsLine_next (h : HasLine b offset line) : StartsLine b (offset + line.length) := by
  obtain ⟨a, rest, -, rfl, hdrop⟩ := h.exists_eq
  have hfeed : (b.drop offset)[a.length]? = some 10 := by simp [hdrop]
  rw [List.getElem?_drop] at hfeed
  exact .inr (by simpa [Nat.add_sub_cancel, ← Nat.add_assoc] using hfeed)

/-- Lines do not overlap. -/
theorem next_le_of_lt (h : HasLine b offset line) (hnext : StartsLine b next) (hlt : offset < next) :
    offset + line.length ≤ next := by
  obtain ⟨a, rest, ha, rfl, hdrop⟩ := h.exists_eq
  rcases hnext with rfl | hfeed
  · exact absurd hlt (Nat.not_lt_zero _)
  · by_contra hshort
    rw [List.length_append, List.length_singleton] at hshort
    -- the line feed in front of `next` would stand inside the line
    have hinside : next - 1 - offset < a.length := by omega
    have hmem : a[next - 1 - offset]? = some 10 := by
      have hindex : offset + (next - 1 - offset) = next - 1 := by omega
      calc a[next - 1 - offset]? = (a ++ 10 :: rest)[next - 1 - offset]? :=
            (List.getElem?_append_left hinside).symm
        _ = b[next - 1]? := by rw [← hdrop, List.getElem?_drop, hindex]
        _ = some 10 := hfeed
    exact ha (List.mem_of_getElem? hmem)

end HasLine

/-- The line of a job is a line. -/
theorem Job.hasLine_line {j : Job} (h : IsOneLine j.json) : HasLine j.line 0 j.line where
  starts := .inl rfl
  isFirst := by simpa using firstLine_line h []
  isComplete := by simp [line]

end AgentRelay
