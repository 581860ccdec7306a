import AgentRelay.Proofs.Json.Respaced

/-!
# Readers that overlook white space

No reader of values can tell two texts with the same tokens apart. It answers both with the same value, or
both with the same fault, whether the text is what it expects or not.

* `Agree` are outcomes that agree, `Overlooks` is what holds of a reader whose outcomes always do.
* `Typed.overlooks` says that it holds of every reader of values, `Typed.readAll_eq` is the rule for whole
  texts.
-/

namespace AgentRelay.Json

variable {α β σ : Type} {x y : Bytes}

/-! ### Readers of single values -/

/-- Two outcomes that agree: the same fault, or the same value in front of texts with the same tokens. -/
inductive Agree : Except Fault (α × Bytes) → Except Fault (α × Bytes) → Prop
  | error (e : Fault) : Agree (.error e) (.error e)
  | ok (a : α) {x y : Bytes} (h : Respaced x y) : Agree (.ok (a, x)) (.ok (a, y))

/-- The reader cannot tell texts with the same tokens apart. -/
def Overlooks (r : Reader α) : Prop :=
  ∀ n m x y, x.length ≤ n → y.length ≤ m → Respaced x y → Agree (r n x) (r m y)

/-- What comes of two outcomes that agree, case by case. -/
@[elab_as_elim]
theorem Agree.elim {motive : Except Fault (α × Bytes) → Except Fault (α × Bytes) → Prop}
    {o o' : Except Fault (α × Bytes)} (h : Agree o o') (error : ∀ e, motive (.error e) (.error e))
    (ok : ∀ a x y, o = .ok (a, x) → o' = .ok (a, y) → Respaced x y → motive (.ok (a, x)) (.ok (a, y))) :
    motive o o' := by
  cases h with
  | error e => exact error e
  | ok a h => exact ok a _ _ rfl rfl h

theorem Agree.bind {r r' : Reader α} {f f' : α → Reader β} {n m : Nat} (h : Agree (r n x) (r' m y))
    (hf : ∀ a x' y', r n x = .ok (a, x') → r' m y = .ok (a, y') → Respaced x' y' →
      Agree (f a n x') (f' a m y')) : Agree (r.bind f n x) (r'.bind f' m y) := by
  unfold Reader.bind
  exact h.elim .error hf

theorem Agree.map {r r' : Reader α} {n m : Nat} (h : Agree (r n x) (r' m y)) (f : α → β) :
    Agree (r.map f n x) (r'.map f m y) :=
  h.bind fun _ _ _ _ _ hrest => .ok _ hrest

theorem Agree.sift {r : Reader α} {n m : Nat} (h : Agree (r n x) (r m y)) (f : α → Except Fault β) :
    Agree (r.sift f n x) (r.sift f m y) := by
  unfold Reader.sift
  refine h.elim .error fun a x y _ _ hrest => ?_
  cases hf : f a with
  | error e => simpa [hf] using Agree.error e
  | ok b => simpa [hf] using Agree.ok b hrest

/-- The reader leaves no more than it was given. -/
def Shrinks (r : Reader α) : Prop := ∀ n b a rest, r n b = .ok (a, rest) → rest.length ≤ b.length

theorem Takes.shrinks {r : Reader α} (h : Takes r) : Shrinks r :=
  fun n b a rest ha => (h n b a rest ha).1.length_le

theorem Overlooks.bind {r : Reader α} {f : α → Reader β} (hr : Overlooks r) (hshrinks : Shrinks r)
    (hf : ∀ a, Overlooks (f a)) : Overlooks (r.bind f) := by
  intro n m x y hx hy h
  refine (hr n m x y hx hy h).bind fun a x' y' hx' hy' h => ?_
  exact hf a n m x' y' ((hshrinks _ _ _ _ hx').trans hx) ((hshrinks _ _ _ _ hy').trans hy) h

theorem overlooks_pure (a : α) : Overlooks (Reader.pure a) := fun _ _ _ _ _ _ h => .ok a h

theorem overlooks_fail (e : Fault) : Overlooks (Reader.fail (α := α) e) := fun _ _ _ _ _ _ _ => .error e

theorem Overlooks.sift {r : Reader α} (hr : Overlooks r) (f : α → Except Fault β) :
    Overlooks (r.sift f) := fun n m x y hx hy h => (hr n m x y hx hy h).sift f

theorem map_const_of_rel {o o' : Option Bytes} (h : Option.Rel Respaced o o') (a : α) :
    (o.map fun _ => a) = o'.map fun _ => a := by
  cases h <;> rfl

/-- What stands in place of an expected value is told by its tokens. -/
theorem Front.mistyped (h : Front x y) (expected : String) : mistyped expected x = mistyped expected y := by
  cases h with
  | nil => rfl
  | @token c x y hc hquote h =>
    have hword : ∀ d w, d :: w ∈ words → ∀ a : Found,
        ((dropWord? w x).map fun _ => a) = (dropWord? w y).map fun _ => a :=
      fun d w hw a => map_const_of_rel (h.dropLetters? d hw) a
    have hnumber := Numeral.same_read? (Respaced.token hc hquote h)
    simp only [Json.mistyped, hword 110 [117, 108, 108] (by simp [words]),
      hword 116 [114, 117, 101] (by simp [words]), hword 102 [97, 108, 115, 101] (by simp [words])]
    generalize Numeral.read? (c :: x) = o at hnumber
    generalize Numeral.read? (c :: y) = o' at hnumber
    cases hnumber with
    | none => simp [hquote]
    | @some a b hsame =>
      obtain ⟨hnumeral, -⟩ := hsame
      simp [hquote, hnumeral]
  | text hbody h => simp [Json.mistyped, hbody.body?, Bytes.isDigit]

theorem agree_stringRest {body : Bytes} (hbody : IsBody body) (h : Respaced x y) (n m : Nat) :
    Agree (stringRest n (body ++ 34 :: x)) (stringRest m (body ++ 34 :: y)) := by
  unfold stringRest
  rw [hbody.body?, hbody.body?]
  dsimp only
  split
  · exact .error _
  · exact .ok _ h

theorem overlooks_stringAs (expected : String) : Overlooks (stringAs expected) := by
  intro n m x y _ _ h
  unfold stringAs
  refine h.behind fun x y _ _ hfront => ?_
  cases hfront with
  | nil => exact .error _
  | token hc hquote h => simp [hquote, (Front.token hc hquote h).mistyped, Agree.error]
  | text hbody h => exact agree_stringRest hbody h n m

/-- The letters behind the first one of a word. -/
theorem agree_word (h : Respaced x y) (c : UInt8) (w : Bytes) (hw : c :: w ∈ words) (a : α) :
    Agree (match dropWord? w x with | some rest => .ok (a, rest) | none => .error .malformed)
      (match dropWord? w y with | some rest => .ok (a, rest) | none => .error .malformed) := by
  have hrel := h.dropLetters? c hw
  generalize dropWord? w x = o at hrel
  generalize dropWord? w y = o' at hrel
  cases hrel with
  | some h => exact .ok a h
  | none => exact .error .malformed

theorem overlooks_boolean : Overlooks boolean := by
  intro n m x y _ _ h
  unfold boolean
  refine h.behind fun x y _ _ hfront => ?_
  cases hfront with
  | nil => exact .error _
  | @token c x y hc hquote h =>
    by_cases htrue : c = 116
    · subst htrue
      exact agree_word h 116 [114, 117, 101] (by simp [words]) true
    by_cases hfalse : c = 102
    · subst hfalse
      exact agree_word h 102 [97, 108, 115, 101] (by simp [words]) false
    simp [htrue, hfalse, (Front.token hc hquote h).mistyped, Agree.error]
  | text hbody h => simp [(Front.text hbody h).mistyped, Agree.error]

theorem overlooks_integer (expected : String) (low high : Int) : Overlooks (integer expected low high) := by
  intro n m x y _ _ h
  unfold integer
  refine h.behind fun x y _ _ hfront => ?_
  cases hfront with
  | nil => exact .error _
  | @token c x y hc hquote h =>
    have hnumber := Numeral.same_read? (Respaced.token hc hquote h)
    simp only [(Front.token hc hquote h).mistyped]
    generalize Numeral.read? (c :: x) = o at hnumber
    generalize Numeral.read? (c :: y) = o' at hnumber
    split_ifs
    · cases hnumber with
      | none => exact .error _
      | @some a b hsame =>
        obtain ⟨a, x⟩ := a
        obtain ⟨b, y⟩ := b
        obtain ⟨rfl, hrest⟩ : a = b ∧ Respaced x y := hsame
        dsimp only
        split
        · split_ifs
          · exact .ok _ hrest
          · exact .error _
        · exact .error _
    · exact .error _
  | text hbody h => simp [(Front.text hbody h).mistyped, Bytes.isDigit, Agree.error]

theorem Overlooks.nullable {r : Reader α} (hr : Overlooks r) : Overlooks (nullable r) := by
  intro n m x y hx hy h
  unfold Json.nullable
  refine h.behind fun x' y' hx' hy' hfront => ?_
  have hagree := (hr n m _ _ (hx'.trans hx) (hy'.trans hy) hfront.respaced).map some
  cases hfront with
  | nil => exact hagree
  | @token c x y hc hquote h =>
    by_cases hnull : c = 110
    · subst hnull
      exact agree_word h 110 [117, 108, 108] (by simp [words]) none
    simpa [hnull] using hagree
  | text hbody h => simpa using hagree

theorem overlooks_ignored : Overlooks ignored := by
  intro n m x y _ _ h
  have hrel := h.extent (p := .value) trivial []
  unfold ignored skipValue
  generalize extent .value [] x = o at hrel
  generalize extent .value [] y = o' at hrel
  cases hrel with
  | none => exact .error _
  | some h => exact .ok _ h

/-! ### Arrays -/

theorem overlooks_nextItem (first : Bool) : Overlooks (nextItem first) := by
  intro n m x y _ _ h
  unfold nextItem
  refine h.behind fun x y _ _ hfront => ?_
  cases hfront with
  | nil => exact .error _
  | @token c x y hc hquote h =>
    by_cases hclose : c = 93
    · subst hclose
      exact .ok _ (.token hc hquote h)
    simp only
    split_ifs
    · exact .ok _ (.token hc hquote h)
    · refine h.behind fun x y _ _ hfront => ?_
      cases hfront with
      | nil => exact .ok _ (.ends (by simp [IsSpaces]) (by simp [IsSpaces]))
      | @token d x y hd hquote h =>
        by_cases hclose : d = 93
        · subst hclose
          exact .error _
        simpa [hclose] using Agree.ok true (.token hd hquote h)
      | text hbody h => exact .ok _ (.text hbody h)
    · exact .error _
  | text hbody h =>
    cases first with
    | true => exact .ok _ (.text hbody h)
    | false => exact .error _

/-- Behind the first element a comma is taken. -/
theorem length_of_nextItem {first : Bool} {n : Nat} {b rest : Bytes}
    (h : nextItem first n b = .ok (true, rest)) :
    rest.length ≤ b.length ∧ rest.length < b.length + first.toNat := by
  have hlength := (skipSpace_suffix b).length_le
  unfold nextItem at h
  split at h
  · cases h
  · cases h
  · rename_i c tail hne hskip
    have htail := (skipSpace_suffix tail).length_le
    rw [hskip, List.length_cons] at hlength
    split_ifs at h with hfirst hcomma
    · cases h
      simp only [hfirst, List.length_cons, Bool.toNat_true]
      omega
    · split at h
      · cases h
      · cases h
        omega

theorem agree_items {r : Reader α} (hr : Overlooks r) (ht : Takes r) {fuel fuel' : Nat} {first : Bool}
    (hfuel : x.length + first.toNat < fuel) (hfuel' : y.length + first.toNat < fuel') (done : List α)
    {n m : Nat} (hx : x.length ≤ n) (hy : y.length ≤ m) (h : Respaced x y) :
    Agree (items r fuel first done n x) (items r fuel' first done m y) := by
  induction fuel generalizing fuel' first done x y with
  | zero => omega
  | succ fuel ih =>
    obtain ⟨fuel', rfl⟩ : ∃ k, fuel' = k + 1 := ⟨fuel' - 1, by omega⟩
    simp only [items]
    refine (overlooks_nextItem first n m x y hx hy h).elim .error fun more x' y' hmid hmid' h => ?_
    cases more with
    | false => exact .ok _ h
    | true =>
      have hlength := length_of_nextItem hmid
      have hlength' := length_of_nextItem hmid'
      dsimp only
      refine (hr n m x' y' (by omega) (by omega) h).elim .error fun a x y hread hread' h => ?_
      have hrest := ht.shrinks _ _ _ _ hread
      have hrest' := ht.shrinks _ _ _ _ hread'
      have hzero : false.toNat = 0 := rfl
      exact ih (by omega) (by omega) _ (by omega) (by omega) h

theorem overlooks_byte {b : UInt8} (hb : b ≠ 34) : Overlooks (byte b) := by
  intro n m x y _ _ h
  unfold byte
  refine h.behind fun x y _ _ hfront => ?_
  cases hfront with
  | nil => exact .error _
  | token hc hquote h =>
    dsimp only
    split_ifs
    · exact .ok _ h
    · exact .error _
  | text hbody h => simp [hb.symm, Agree.error]

theorem overlooks_closeBracket : Overlooks closeBracket := closeBracket_eq ▸ overlooks_byte (by decide)

theorem overlooks_closeBrace : Overlooks closeBrace := closeBrace_eq ▸ overlooks_byte (by decide)

theorem Overlooks.list {r : Reader α} (hr : Overlooks r) (ht : Takes r) : Overlooks (list r) := by
  intro n m x y hx hy h
  unfold Json.list
  refine h.behind fun x' y' hx' hy' hfront => ?_
  cases hfront with
  | nil => exact .error _
  | @token c x y hc hquote h =>
    by_cases hopen : c = 91
    · subst hopen
      simp only [List.length_cons] at hx' hy'
      have hitems : Agree (items r (n + 1) true [] n x) (items r (m + 1) true [] m y) :=
        agree_items hr ht (by simp; omega) (by simp; omega) [] (by omega) (by omega) h
      simp only
      refine hitems.elim .error fun l x y hl hl' h => ?_
      have hlength := (passesTo_items ht hl).1.length_le
      have hlength' := (passesTo_items ht hl').1.length_le
      exact (overlooks_closeBracket n m x y (by omega) (by omega) h).map fun _ => l
    simp [hopen, (Front.token hc hquote h).mistyped, Agree.error]
  | text hbody h => simp [(Front.text hbody h).mistyped, Agree.error]

/-! ### Records -/

theorem agree_key {body : Bytes} (hbody : IsBody body) (h : Respaced x y) (n m : Nat) :
    Agree ((stringRest.map some) n (body ++ 34 :: x)) ((stringRest.map some) m (body ++ 34 :: y)) :=
  (agree_stringRest hbody h n m).map some

theorem overlooks_nextKey (first : Bool) : Overlooks (nextKey first) := by
  intro n m x y _ _ h
  unfold nextKey
  refine h.behind fun x y _ _ hfront => ?_
  cases hfront with
  | nil => exact .error _
  | @token c x y hc hquote h =>
    by_cases hclose : c = 125
    · subst hclose
      exact .ok _ (.token hc hquote h)
    simp only
    split_ifs
    · simp [hquote, Agree.error]
    · refine h.behind fun x y _ _ hfront => ?_
      cases hfront with
      | nil => exact .error _
      | token hd hquote h => simp [hquote, Agree.error]
      | text hbody h => exact agree_key hbody h n m
    · exact .error _
  | text hbody h =>
    cases first with
    | true => exact agree_key hbody h n m
    | false => exact .error _

variable {fields : List (MemberReader σ)}

theorem shrinks_byte (c : UInt8) : Shrinks (byte c) :=
  fun _ _ _ _ h => (suffix_of_skipSpace (byte_eq_ok h)).length_le

theorem overlooks_behind_colon {r : Reader α} (hr : Overlooks r) (ht : Takes r) (f : α → σ) :
    Overlooks (colon.bind fun _ => r.bind fun a => .pure (f a)) := by
  rw [colon_eq]
  exact (overlooks_byte (by decide)).bind (shrinks_byte 58) fun _ =>
    hr.bind ht.shrinks fun a => overlooks_pure (f a)

theorem overlooks_skipMember (s : σ) : Overlooks (skipMember s) :=
  overlooks_behind_colon overlooks_ignored takes_ignored fun _ => s

theorem overlooks_readMember {f : MemberReader σ} (hread : Overlooks f.read) (htakes : Takes f.read)
    (s : σ) : Overlooks (readMember f s) :=
  overlooks_behind_colon hread htakes fun store => store s

theorem agree_members (hfields : ∀ f ∈ fields, Overlooks f.read ∧ Takes f.read) {fuel fuel' : Nat}
    {first : Bool} (hfuel : x.length < fuel) (hfuel' : y.length < fuel') (seen : List String) (s : σ)
    {n m : Nat} (hx : x.length ≤ n) (hy : y.length ≤ m) (h : Respaced x y) :
    Agree (members fields fuel first seen s n x) (members fields fuel' first seen s m y) := by
  induction fuel generalizing fuel' first seen s x y with
  | zero => omega
  | succ fuel ih =>
    obtain ⟨fuel', rfl⟩ : ∃ k, fuel' = k + 1 := ⟨fuel' - 1, by omega⟩
    simp only [members]
    refine (overlooks_nextKey first n m x y hx hy h).elim .error fun key x' y' hmid hmid' h => ?_
    cases key with
    | none => exact .ok _ h
    | some key =>
      have hlength := (nextKey_eq_some hmid).2.1
      have hlength' := (nextKey_eq_some hmid').2.1
      dsimp only
      split
      · refine (overlooks_skipMember s n m x' y' (by omega) (by omega) h).elim .error
          fun s x y hskip hskip' h => ?_
        have hrest := (takes_behind_colon takes_ignored hskip).1.length_le
        have hrest' := (takes_behind_colon takes_ignored hskip').1.length_le
        exact ih (by omega) (by omega) _ _ (by omega) (by omega) h
      · rename_i f hf
        obtain ⟨hread, htakes⟩ := hfields f (List.mem_of_find?_eq_some hf)
        split_ifs
        · exact .error _
        · refine (overlooks_readMember hread htakes s n m x' y' (by omega) (by omega) h).elim .error
            fun s x y hread hread' h => ?_
          have hrest := (takes_behind_colon htakes hread).1.length_le
          have hrest' := (takes_behind_colon htakes hread').1.length_le
          exact ih (by omega) (by omega) _ _ (by omega) (by omega) h

theorem shrinks_nextItem (first : Bool) : Shrinks (nextItem first) :=
  fun _ _ _ _ h => (nextItem_eq_ok h).1.length_le

theorem overlooks_positional (hfields : ∀ f ∈ fields, Overlooks f.read ∧ Takes f.read) (first : Bool)
    (s : σ) : Overlooks (positional fields first s) := by
  induction fields generalizing first s with
  | nil => exact overlooks_pure s
  | cons f fields ih =>
    refine (overlooks_nextItem first).bind (shrinks_nextItem first) fun more => ?_
    obtain ⟨hread, htakes⟩ := hfields f (by simp)
    cases more with
    | false => exact overlooks_pure s
    | true =>
      exact hread.bind htakes.shrinks fun store =>
        ih (fun g hg => hfields g (List.mem_cons_of_mem _ hg)) false (store s)

theorem overlooks_checked {close : Reader Unit} (check : σ → Option Fault) (hclose : Overlooks close)
    (hshrinks : Shrinks close) (s : σ) : Overlooks (match check s with
      | some e => .fail e
      | none => close.bind fun _ => .pure s : Reader σ) := by
  split
  · exact overlooks_fail _
  · exact hclose.bind hshrinks fun _ => overlooks_pure s

theorem overlooks_checkedRecord (expected : String) (start : σ) (check : Bool → σ → Option Fault)
    (hfields : ∀ f ∈ fields, Overlooks f.read ∧ Takes f.read) :
    Overlooks (checkedRecord expected fields start check) := by
  intro n m x y hx hy h
  unfold checkedRecord
  refine h.behind fun x' y' hx' hy' hfront => ?_
  cases hfront with
  | nil => exact .error _
  | @token c x y hc hquote h =>
    simp only [List.length_cons] at hx' hy'
    have htakes : ∀ f ∈ fields, Takes f.read := fun f hf => (hfields f hf).2
    by_cases hlist : c = 91
    · subst hlist
      have hbody := overlooks_positional hfields true start
      have hshrinks : Shrinks (positional fields true start) :=
        fun _ _ _ _ h => (passesTo_positional htakes h).1.length_le
      have hclose := fun s => overlooks_checked (check true) overlooks_closeBracket
        (closeBracket_eq ▸ shrinks_byte 93) s
      exact hbody.bind hshrinks hclose n m x y (by omega) (by omega) h
    by_cases hobject : c = 123
    · subst hobject
      have hbody : Agree (members fields (n + 1) true [] start n x)
          (members fields (m + 1) true [] start m y) :=
        agree_members hfields (by omega) (by omega) [] start (by omega) (by omega) h
      have hclose := fun s => overlooks_checked (check false) overlooks_closeBrace
        (closeBrace_eq ▸ shrinks_byte 125) s
      refine hbody.bind fun s x' y' hx' hy' h => ?_
      have hlength := (passesTo_members htakes hx').1.length_le
      have hlength' := (passesTo_members htakes hy').1.length_le
      exact hclose s n m x' y' (by omega) (by omega) h
    simp [hlist, hobject, (Front.token hc hquote h).mistyped, Agree.error]
  | text hbody h => simp [(Front.text hbody h).mistyped, Agree.error]

/-! ### Whole texts -/

/-- No reader of values can tell texts with the same tokens apart. -/
theorem Typed.overlooks {r : Reader α} (h : Typed r) : Overlooks r := by
  induction h with
  | string expected => exact overlooks_stringAs expected
  | boolean => exact overlooks_boolean
  | integer expected low high => exact overlooks_integer expected low high
  | nullable _ ih => exact ih.nullable
  | list h ih => exact ih.list h.takes
  | record expected start check h ih =>
    exact overlooks_checkedRecord expected start check fun f hf => ⟨ih f hf, (h f hf).takes⟩
  | sift _ f ih => exact ih.sift f

/-- White space in front of a value is skipped. -/
theorem Typed.skipSpace {r : Reader α} (h : Typed r) (n : Nat) (b : Bytes) : r n (skipSpace b) = r n b := by
  induction h with
  | string expected => simp only [stringAs, skipSpace_idem]
  | boolean => simp only [Json.boolean, skipSpace_idem]
  | integer expected low high => simp only [Json.integer, skipSpace_idem]
  | nullable _ _ => simp only [Json.nullable, skipSpace_idem]
  | list _ _ => simp only [Json.list, skipSpace_idem]
  | record expected start check _ _ => simp only [checkedRecord, skipSpace_idem]
  | sift _ f ih => simp only [Reader.sift, ih]

/-- A whole text is read alike, with white space in front of it too. -/
theorem Typed.readAll_eq {r : Reader α} (hr : Typed r) (h : Respaced (Json.skipSpace x) (Json.skipSpace y)) :
    readAll r x = readAll r y := by
  have hagree := hr.overlooks x.length y.length _ _ (skipSpace_suffix x).length_le
    (skipSpace_suffix y).length_le h
  rw [hr.skipSpace, hr.skipSpace] at hagree
  unfold readAll
  refine hagree.elim (fun _ => rfl) fun a x y _ _ h => ?_
  dsimp only
  refine h.behind fun x y _ _ hfront => ?_
  cases hfront <;> rfl

end AgentRelay.Json
