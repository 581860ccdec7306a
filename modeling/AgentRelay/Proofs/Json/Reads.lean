import AgentRelay.Proofs.Json.Quoted
import Mathlib.Data.List.Forall2

/-!
# Texts that a reader reads as a value

Values are written without white space, so what follows a value is a comma, a closing bracket or
nothing at all. `Reads r t a` says that the reader `r` takes the text `t` from in front of any such
continuation and answers with `a`.

* `reads_string`, `reads_nullable` and `reads_list` are the rules for strings, values that may be
  `null`, and arrays.
* `readAll_of_reads` is the rule for a text that holds one value.
-/

namespace AgentRelay.Json

/-- What follows cannot belong to the value in front: nothing, a comma or a closing bracket. -/
def Closes (rest : Bytes) : Prop := ∀ b ∈ rest.head?, b = 44 ∨ b = 93 ∨ b = 125

@[simp] theorem closes_nil : Closes [] := by simp [Closes]
@[simp] theorem closes_comma (rest : Bytes) : Closes (44 :: rest) := by simp [Closes]
@[simp] theorem closes_bracket (rest : Bytes) : Closes (93 :: rest) := by simp [Closes]
@[simp] theorem closes_brace (rest : Bytes) : Closes (125 :: rest) := by simp [Closes]

/-- The text starts with a byte that is neither white space nor the start of `null`, and that closes
no array. -/
def Opens (t : Bytes) : Prop := ∃ c tail, t = c :: tail ∧ isSpace c = false ∧ c ≠ 110 ∧ c ≠ 93

theorem Opens.skipSpace {t : Bytes} (h : Opens t) (rest : Bytes) :
    Json.skipSpace (t ++ rest) = t ++ rest := by
  obtain ⟨c, tail, rfl, hc, -⟩ := h
  exact skipSpace_of_not_isSpace hc (tail ++ rest)

theorem opens_quote (s : String) : Opens (quote s) :=
  ⟨34, escape (Bytes.utf8 s) ++ [34], rfl, by decide, by decide, by decide⟩

theorem opens_object (pieces : List Bytes) : Opens (object pieces) :=
  ⟨123, commas pieces ++ [125], rfl, by decide, by decide, by decide⟩

/-- The reader takes the text for the value, in front of anything that can follow a value. -/
def Reads {α : Type} (r : Reader α) (t : Bytes) (a : α) : Prop :=
  ∀ n rest, t.length ≤ n → Closes rest → r n (t ++ rest) = .ok (a, rest)

variable {α β : Type}

/-- Reading and changing what was read. -/
theorem Reads.map {r : Reader α} {t : Bytes} {a : α} (h : Reads r t a) (f : α → β) :
    Reads (r.map f) t (f a) := by
  intro n rest hn hrest
  simp only [Reader.map, Reader.bind, Reader.pure, h n rest hn hrest]

/-- A written string is read. -/
theorem reads_string (s : String) : Reads string (quote s) s :=
  fun n rest _ _ => stringAs_quote "a string" s n rest

/-- A value that may be `null` is read when it is not. -/
theorem reads_nullable {r : Reader α} {t : Bytes} {a : α} (h : Reads r t a) (ht : Opens t) :
    Reads (nullable r) t (some a) := by
  intro n rest hn hrest
  have hread := h.map some n rest hn hrest
  obtain ⟨c, tail, rfl, hc, hnull, -⟩ := ht
  rw [nullable, List.cons_append, skipSpace_of_not_isSpace hc]
  split
  · rename_i heq
    exact absurd (List.cons.inj heq).1 hnull
  · exact hread

/-- A text that holds one value is read as that value. -/
theorem readAll_of_reads {r : Reader α} {t : Bytes} {a : α} (h : Reads r t a) :
    readAll r t = .ok a := by
  have hread := h t.length [] (Nat.le_refl _) closes_nil
  rw [List.append_nil] at hread
  simp [readAll, hread, skipSpace]

/-! ### Arrays -/

/-- Pieces behind another one, each with its comma. -/
def followers (ts : List Bytes) : Bytes := ts.flatMap (44 :: ·)

@[simp] theorem followers_cons (t : Bytes) (ts : List Bytes) :
    followers (t :: ts) = 44 :: (t ++ followers ts) := rfl

theorem commas_cons (t : Bytes) (ts : List Bytes) : commas (t :: ts) = t ++ followers ts := by
  induction ts generalizing t with
  | nil => simp [commas, followers]
  | cons u ts ih =>
    have h := ih u
    simp only [commas] at h ⊢
    rw [List.intersperse_cons_cons, List.flatten_cons, List.flatten_cons, h]
    simp

theorem length_le_followers {ts : List Bytes} {t : Bytes} (h : t ∈ ts) :
    t.length ≤ (followers ts).length := by
  induction ts with
  | nil => cases h
  | cons u ts ih =>
    simp only [followers_cons, List.length_cons, List.length_append]
    rcases List.mem_cons.1 h with rfl | h
    · omega
    · have := ih h
      omega

theorem length_le_commas {ts : List Bytes} {t : Bytes} (h : t ∈ ts) :
    t.length ≤ (commas ts).length := by
  cases ts with
  | nil => cases h
  | cons u ts =>
    rw [commas_cons, List.length_append]
    rcases List.mem_cons.1 h with rfl | h
    · omega
    · have := length_le_followers h
      omega

theorem count_le_followers (ts : List Bytes) : ts.length ≤ (followers ts).length := by
  induction ts with
  | nil => simp
  | cons t ts ih =>
    simp only [followers_cons, List.length_cons, List.length_append]
    omega

theorem count_le_commas (ts : List Bytes) : ts.length ≤ (commas ts).length + 1 := by
  cases ts with
  | nil => simp
  | cons t ts =>
    have := count_le_followers ts
    simp only [commas_cons, List.length_cons, List.length_append]
    omega

/-- What stands behind a piece closes the value in it. -/
theorem closes_followers (ts : List Bytes) {rest : Bytes} (h : Closes rest) :
    Closes (followers ts ++ rest) := by
  cases ts with
  | nil => exact h
  | cons t ts => exact closes_comma _

theorem nextItem_bracket (first : Bool) (n : Nat) (rest : Bytes) :
    nextItem first n (93 :: rest) = .ok (false, 93 :: rest) := by
  rw [nextItem, skipSpace_of_not_isSpace (by decide)]
  rfl

theorem nextItem_first {t : Bytes} (ht : Opens t) (n : Nat) (rest : Bytes) :
    nextItem true n (t ++ rest) = .ok (true, t ++ rest) := by
  rw [nextItem, ht.skipSpace]
  obtain ⟨c, tail, rfl, -, -, hc⟩ := ht
  split <;> simp_all

theorem nextItem_comma {t : Bytes} (ht : Opens t) (n : Nat) (rest : Bytes) :
    nextItem false n (44 :: (t ++ rest)) = .ok (true, t ++ rest) := by
  rw [nextItem, skipSpace_of_not_isSpace (by decide)]
  split
  · contradiction
  · rename_i heq
    exact absurd (List.cons.inj heq).1 (by decide)
  · rename_i heq
    obtain ⟨rfl, rfl⟩ := List.cons.inj heq
    have hskip := ht.skipSpace rest
    obtain ⟨c, tail, rfl, -, -, hc⟩ := ht
    simp only [Bool.false_eq_true, ↓reduceIte, beq_self_eq_true]
    rw [hskip]
    split <;> simp_all

/-- The elements behind another one are read onto those before. -/
theorem items_followers {r : Reader α} {ts : List Bytes} {l : List α}
    (h : List.Forall₂ (fun t a => Reads r t a ∧ Opens t) ts l) {n fuel : Nat}
    (hn : ∀ t ∈ ts, t.length ≤ n) (hfuel : ts.length < fuel) (done : List α) (rest : Bytes) :
    items r fuel false done n (followers ts ++ 93 :: rest) = .ok (done.reverse ++ l, 93 :: rest) := by
  induction h generalizing fuel done with
  | nil =>
    obtain ⟨fuel, rfl⟩ := Nat.exists_eq_add_of_lt hfuel
    simp [items, followers, nextItem_bracket]
  | @cons t a ts l ha _ ih =>
    obtain ⟨fuel, rfl⟩ : ∃ k, fuel = k + 1 := ⟨fuel - 1, by simp at hfuel; omega⟩
    have hread := ha.1 n (followers ts ++ 93 :: rest) (hn t (by simp))
      (closes_followers ts (closes_bracket rest))
    have htail := ih (fun u hu => hn u (List.mem_cons_of_mem _ hu))
      (by simp at hfuel; omega) (a :: done)
    simp only [followers_cons, List.cons_append, List.append_assoc, items, nextItem_comma ha.2,
      hread, htail]
    simp

/-- A written array is read. -/
theorem reads_list {r : Reader α} {ts : List Bytes} {l : List α}
    (h : List.Forall₂ (fun t a => Reads r t a ∧ Opens t) ts l) : Reads (list r) (array ts) l := by
  intro n rest hn _
  have hlength : (commas ts).length + 2 ≤ n := by
    simp [array] at hn
    omega
  have hfuel : ts.length < n + 1 := by
    have := count_le_commas ts
    omega
  have hbound : ∀ t ∈ ts, t.length ≤ n := fun t ht => by
    have := length_le_commas ht
    omega
  have hclose : closeBracket.map (fun _ => l) n (93 :: rest) = .ok (l, rest) := by
    simp only [Reader.map, Reader.bind, closeBracket, skipSpace_of_not_isSpace (c := 93) (by decide)]
    rfl
  have hitems : items r (n + 1) true [] n (commas ts ++ 93 :: rest) = .ok (l, 93 :: rest) := by
    cases h with
    | nil => simp [commas, items, nextItem_bracket]
    | @cons t a ts l ha h =>
      have hread := ha.1 n (followers ts ++ 93 :: rest) (hbound t (by simp))
        (closes_followers ts (closes_bracket rest))
      have htail := items_followers h (fun u hu => hbound u (List.mem_cons_of_mem _ hu))
        (by simpa using hfuel) [a] rest
      simp only [commas_cons, List.append_assoc, items, nextItem_first ha.2, hread, htail]
      simp
  have htext : array ts ++ rest = 91 :: (commas ts ++ 93 :: rest) := by simp [array]
  rw [htext, list, skipSpace_of_not_isSpace (by decide)]
  simp only [hitems, hclose]

end AgentRelay.Json
