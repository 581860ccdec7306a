import AgentRelay.Proofs.Tracker.Reply

/-!
# How a body is cut does not matter

A body arrives in chunks, and reading ends with the chunk that reaches the limit. Until then less than the
limit has been read, so there is always room for more, and what is read in the end is the beginning of all
the bytes in a row.

* `BreaksOff`: the connection breaks before a chunk has reached the limit. There is no other way to fail.
* `readLimited_ignores_cuts` says what that means for chunks that are cut in another way, and for replies.
-/

namespace AgentRelay.Tracker

open Json

variable {α : Type} {limit : Nat} {chunks : List Bytes} {broken : Option TransportFault}

/-- The connection breaks before a chunk has reached the limit. Where nothing may be read any chunk
reaches it, and an empty one as well. -/
def BreaksOff (limit : Nat) (chunks : List Bytes) (broken : Option TransportFault) : Prop :=
  broken ≠ none ∧ ∀ arrived, arrived <+: chunks → arrived ≠ [] → arrived.flatten.length < limit

theorem breaksOff_iff :
    BreaksOff limit chunks broken ↔ broken ≠ none ∧ (chunks = [] ∨ chunks.flatten.length < limit) := by
  refine and_congr_right fun _ => ⟨fun h => ?_, ?_⟩
  · by_cases hnil : chunks = []
    · exact .inl hnil
    · exact .inr (h chunks (List.prefix_refl _) hnil)
  · rintro (rfl | hshort) arrived hprefix hne
    · exact absurd (List.prefix_nil.1 hprefix) hne
    · obtain ⟨rest, rfl⟩ := hprefix
      rw [List.flatten_append, List.length_append] at hshort
      omega

instance : Decidable (BreaksOff limit chunks broken) := decidable_of_iff' _ breaksOff_iff

/-- Reading gives the first bytes of all that arrive, unless the connection breaks off. -/
theorem readLimited_of_not_breaksOff (h : ¬ BreaksOff limit chunks broken) :
    readLimited limit chunks broken = .ok (chunks.flatten.take limit) := by
  rw [breaksOff_iff, not_and, not_or, Nat.not_lt] at h
  obtain rfl | hpos := Nat.eq_zero_or_pos limit
  -- the first chunk ends the reading, whatever it holds
  · rw [List.take_zero]
    cases chunks with
    | nil =>
      cases broken with
      | none => rfl
      | some fault => exact absurd rfl (h (by simp)).1
    | cons chunk chunks => simp [readLimited, collect]
  · refine collect_of_holds hpos ?_
    cases broken with
    | none => exact .inl rfl
    | some fault => exact .inr (h (by simp)).2

/-- When the connection breaks off, what it said is all that comes of the reading. -/
theorem readLimited_of_breaksOff {fault : TransportFault} (h : BreaksOff limit chunks (some fault)) :
    readLimited limit chunks (some fault) = .error (.broken fault) := by
  obtain ⟨-, rfl | hshort⟩ := breaksOff_iff.1 h
  · rfl
  · exact collect_of_breaks hshort

/-- A reply that is cut in another way amounts to the same. -/
theorem Reply.data_of_flatten_eq (reply : Reply) (h : chunks.flatten = reply.chunks.flatten)
    (operation : String) (r : Reader α) :
    Reply.data operation r { reply with chunks } = reply.data operation r := by
  by_cases harrives : reply.Arrives
  · have harrives' : Reply.Arrives { reply with chunks } := by rwa [Arrives, h]
    rw [data_of_arrives harrives, data_of_arrives harrives', body, body, h]
  · obtain ⟨fault, hbroken, hshort⟩ := not_arrives_iff.1 harrives
    have hbreaks : Reply.data operation r { reply with chunks } = .error (.transport operation fault) :=
      data_of_breaks hbroken (h ▸ hshort)
    rw [hbreaks, data_of_breaks hbroken hshort]

/-- What reading makes of chunks. The bytes in a row decide, and no cut does. -/
structure IgnoresCuts (limit : Nat) (chunks : List Bytes) (broken : Option TransportFault) : Prop where
  /-- There is always room for more. -/
  not_overrun : readLimited limit chunks broken ≠ .error .overrun
  /-- Reading fails just when the connection breaks off, with what the transport says of that. -/
  broken_iff : ∀ fault, readLimited limit chunks broken = .error (.broken fault) ↔
    broken = some fault ∧ BreaksOff limit chunks broken
  /-- Otherwise it gives the first bytes of all. -/
  first : ¬ BreaksOff limit chunks broken →
    readLimited limit chunks broken = .ok (chunks.flatten.take (min limit chunks.flatten.length))
  /-- These are all of them when they are as many as the limit. -/
  whole : ¬ BreaksOff limit chunks broken → chunks.flatten.length = limit →
    readLimited limit chunks broken = .ok chunks.flatten
  /-- The same bytes in other chunks give the same. -/
  recut : ¬ BreaksOff limit chunks broken → ∀ chunks' broken', chunks'.flatten = chunks.flatten →
    ¬ BreaksOff limit chunks' broken' → readLimited limit chunks' broken' = readLimited limit chunks broken
  /-- A reply that is cut like this amounts to the same. -/
  reply : ∀ {α : Type} (reply : Reply) (operation : String) (r : Reader α),
    chunks.flatten = reply.chunks.flatten →
      Reply.data operation r { reply with chunks } = reply.data operation r

/-- **Cuts do not matter.** Whatever the limit is and however the chunks are cut, reading never has more than
the limit already. It fails just when the connection breaks off; one that breaks before any chunk does so for
every limit, also where nothing may be read. Otherwise it gives the first bytes of all chunks in a row. -/
theorem readLimited_ignores_cuts (limit : Nat) (chunks : List Bytes) (broken : Option TransportFault) :
    IgnoresCuts limit chunks broken where
  not_overrun := by
    by_cases h : BreaksOff limit chunks broken
    · obtain ⟨fault, rfl⟩ := Option.ne_none_iff_exists'.1 h.1
      simp [readLimited_of_breaksOff h]
    · simp [readLimited_of_not_breaksOff h]
  broken_iff fault := by
    by_cases h : BreaksOff limit chunks broken
    · obtain ⟨said, rfl⟩ := Option.ne_none_iff_exists'.1 h.1
      simp [readLimited_of_breaksOff h, h]
    · simp [readLimited_of_not_breaksOff h, h]
  first h := by rw [readLimited_of_not_breaksOff h, ← List.take_eq_take_min]
  whole h hlength := by rw [readLimited_of_not_breaksOff h, ← hlength, List.take_length]
  recut h chunks' broken' hbytes h' := by
    rw [readLimited_of_not_breaksOff h, readLimited_of_not_breaksOff h', hbytes]
  reply reply operation r h := reply.data_of_flatten_eq h operation r

/-- A connection that was closed too early. -/
def hangUp : TransportFault := { text := "error decoding response body" }

/-- Three bytes in two cuts, with empty chunks and a connection that breaks behind them. -/
theorem readLimited_ignores_cuts_three :
    ([[], [1, 2], [3]] : List Bytes).flatten.length = 3 ∧ ¬ BreaksOff 3 [[], [1, 2], [3]] (some hangUp) ∧
    ¬ BreaksOff 3 [[1], [], [2, 3]] none ∧ readLimited 3 [[], [1, 2], [3]] (some hangUp) = .ok [1, 2, 3] ∧
    readLimited 3 [[1], [], [2, 3]] none = readLimited 3 [[], [1, 2], [3]] (some hangUp) ∧
    Reply.data "read" idReader ⟨200, [[], [1, 2], [3]], some hangUp⟩ =
      Reply.data "read" idReader ⟨200, [[1], [], [2, 3]], some hangUp⟩ := by
  have hlength : ([[], [1, 2], [3]] : List Bytes).flatten.length = 3 := by decide
  have hbreaks : ¬ BreaksOff 3 [[], [1, 2], [3]] (some hangUp) := by decide
  have hbreaks' : ¬ BreaksOff 3 [[1], [], [2, 3]] none := by decide
  have hread := readLimited_ignores_cuts 3 [[], [1, 2], [3]] (some hangUp)
  exact ⟨hlength, hbreaks, hbreaks', hread.whole hbreaks hlength,
    hread.recut hbreaks _ _ (by decide) hbreaks',
    hread.reply ⟨200, [[1], [], [2, 3]], some hangUp⟩ "read" idReader (by decide)⟩

end AgentRelay.Tracker
